import SchemaRegistry.Json.Fault

/-!
# Tokens of JSON

The words of the notation: marks, `true`, `false`, `null`, numbers and strings. Two judgements about
a token depend on whether its value is wanted and are therefore left to its reader: a number is kept
together with the fact that it is out of range, and a string is kept as the pieces it was written in.
-/

namespace SchemaRegistry.Json

/-! ## Numerals -/

/-- A number as it is written: a whole part, and perhaps a fraction and a signed exponent. -/
structure Numeral where
  negative : Bool
  whole : List Char
  fraction : Option (List Char)
  exponent : Option (Bool × List Char)

namespace Numeral

/-- Adds decimal digits to `significand` as long as it stays below `2 ^ 64`; the number of digits left
out comes with the result. -/
def collect (significand : Nat) : List Char → Nat × Nat
  | [] => (significand, 0)
  | d :: rest =>
    let next := 10 * significand + (d.toNat - '0'.toNat)
    if next < 0x10000000000000000 then collect next rest else (significand, rest.length + 1)

/-- Divides by ten, `exponent` times, in steps that are themselves doubles. -/
def scaleDown (x : Float) (exponent : Nat) : Float :=
  if exponent ≤ 308 then x / Decimal.toFloat ⟨1, exponent⟩
  else if x == 0 then x
  else scaleDown (x / Decimal.toFloat ⟨1, 308⟩) (exponent - 308)
termination_by exponent

/-- The double of `significand · 10 ^ exponent`, computed with one rounding of the significand and one
of the scaling; `none` if it is too large. -/
def scale (significand : Nat) (exponent : Int) : Option Float :=
  let x := significand.toUInt64.toFloat
  if exponent < 0 then some (scaleDown x exponent.natAbs)
  else if exponent ≤ 308 then
    let y := x * Decimal.toFloat ⟨1, exponent⟩
    if y.isInf then none else some y
  else if x == 0 then some x
  else none

/-- The number that a numeral stands for; `none` if it is too large for a double. A numeral without
fraction and exponent is an integer when 64 bits hold it, signed if it is negative; `-0` is a
double. Digits beyond what 64 bits hold do not count, except that those of the whole part keep their
weight. -/
def number? (n : Numeral) : Option Number :=
  let (whole, dropped) := collect 0 n.whole
  if n.fraction.isNone ∧ n.exponent.isNone ∧ dropped = 0 ∧ whole < 0x10000000000000000 ∧
      ¬n.negative then
    if h : whole < 0x10000000000000000 then some (.integer whole (Number.inRange_natCast h)) else none
  else if n.fraction.isNone ∧ n.exponent.isNone ∧ dropped = 0 ∧ 0 < whole ∧
      whole ≤ 0x8000000000000000 then
    if h : whole ≤ 0x8000000000000000 then some (.integer (-whole) (Number.inRange_neg_natCast h))
    else none
  else
    let digits := n.fraction.getD []
    let (significand, ignored) := collect whole digits
    let power : Int := match n.exponent with
      | none => 0
      | some (false, ds) => (Nat.ofDigitChars 10 ds 0 : Nat)
      | some (true, ds) => -(Nat.ofDigitChars 10 ds 0 : Nat)
    let used : Int := (digits.length : Int) - ignored
    (scale significand (dropped - used + power)).map fun x => .float (if n.negative then -x else x)

end Numeral

/-! ## Tokens -/

/-- A piece of a string as it is written: a character, by itself or by a letter after a backslash, or
a UTF-16 unit by its four hexadecimal digits. -/
inductive Piece where
  | char (c : Char)
  | unit (u : Nat)
deriving DecidableEq, Repr

/-- Why the text of a string cannot be read on. -/
inductive StringFault where
  /-- The text ends. -/
  | ends
  /-- An unescaped control character. -/
  | control
  /-- A backslash before something that is not an escape. -/
  | escape
  /-- Four characters after `\u` that are not all hexadecimal digits. -/
  | hex
deriving DecidableEq, Repr

/-- Why no token can be read. -/
inductive ScanFault where
  /-- A character that begins no token. -/
  | stray
  /-- A broken `true`, `false` or `null`; `ends` if the text just ends. -/
  | word (ends : Bool)
  /-- A broken number; `ends` if the text just ends. -/
  | numeral (ends : Bool)
  /-- A broken string, with the pieces before the break. -/
  | string (pieces : List Piece) (why : StringFault)

/-- A token. -/
inductive Token where
  | openArray
  | closeArray
  | openObject
  | closeObject
  | comma
  | colon
  | null
  | boolean (b : Bool)
  /-- A number; `none` if it is out of range. -/
  | number (n : Option Number)
  | string (pieces : List Piece)
  | fault (why : ScanFault)

end SchemaRegistry.Json
