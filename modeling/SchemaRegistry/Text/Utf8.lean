/-!
# Reading bytes as text

`decodeLenient` reads bytes as UTF-8 whatever they are: where they are not well formed, each longest
piece that could still have been the beginning of a character, and each byte that could not, is replaced
by U+FFFD.
-/

namespace SchemaRegistry.Text

/-- The part of a character that has been read. -/
structure Utf8State where
  /-- The number of bytes that are missing. -/
  missing : Nat := 0
  /-- The bits that have been read. -/
  value : Nat := 0
  /-- The least and the greatest byte that may follow. -/
  least : Nat := 0x80
  greatest : Nat := 0xBF

namespace Utf8State

/-- The character that stands for what cannot be read. -/
def replacement : Char := '\ufffd'

/-- What the first byte of a character gives: characters that are finished, and what is left to read. -/
def lead (b : Nat) : List Char × Utf8State :=
  if b < 0x80 then ([Char.ofNat b], {})
  else if b < 0xC2 then ([replacement], {})
  else if b < 0xE0 then ([], ⟨1, b - 0xC0, 0x80, 0xBF⟩)
  else if b < 0xF0 then
    ([], ⟨2, b - 0xE0, if b = 0xE0 then 0xA0 else 0x80, if b = 0xED then 0x9F else 0xBF⟩)
  else if b < 0xF5 then
    ([], ⟨3, b - 0xF0, if b = 0xF0 then 0x90 else 0x80, if b = 0xF4 then 0x8F else 0xBF⟩)
  else ([replacement], {})

/-- What a byte gives. -/
def step (s : Utf8State) (b : Nat) : List Char × Utf8State :=
  if s.missing = 0 then lead b
  else if s.least ≤ b ∧ b ≤ s.greatest then
    let value := 64 * s.value + (b - 0x80)
    if s.missing = 1 then ([Char.ofNat value], {}) else ([], ⟨s.missing - 1, value, 0x80, 0xBF⟩)
  else (replacement :: (lead b).1, (lead b).2)

/-- Reads bytes. -/
def read (s : Utf8State) : List UInt8 → List Char
  | [] => if s.missing = 0 then [] else [replacement]
  | b :: rest => (s.step b.toNat).1 ++ read (s.step b.toNat).2 rest

end Utf8State

/-- The text of any bytes. -/
def decodeLenient (bytes : ByteArray) : String :=
  match String.fromUTF8? bytes with
  | some text => text
  | none => String.ofList (Utf8State.read {} bytes.toList)

end SchemaRegistry.Text
