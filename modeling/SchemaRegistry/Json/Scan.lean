import SchemaRegistry.Json.Token
import SchemaRegistry.Text.Hexadecimal
import SchemaRegistry.Decimal.Numeral

/-!
# Cutting a text into tokens

`scan` cuts a JSON text into tokens, skipping blanks. A text that cannot be cut further ends in a
`Token.fault`; the tokens before it stand, so that whoever reads them in order meets the first fault
of the text at its place.
-/

namespace SchemaRegistry.Json

open Text (hexValue?)
open Decimal (takeSign)

/-- The characters between tokens. -/
def isBlank (c : Char) : Bool := c = ' ' ∨ c = '\t' ∨ c = '\n' ∨ c = '\r'

/-- The character that a letter after a backslash stands for. -/
def escapedChar? : Char → Option Char
  | '"' => some '"'
  | '\\' => some '\\'
  | '/' => some '/'
  | 'b' => some '\x08'
  | 'f' => some '\x0c'
  | 'n' => some '\n'
  | 'r' => some '\r'
  | 't' => some '\t'
  | _ => none

/-- A string after its opening quote: its pieces and the text after the closing quote, or the pieces
before the fault. -/
inductive StringScan where
  | closed (pieces : List Piece) (rest : List Char)
  | broken (pieces : List Piece) (why : StringFault)

/-- Puts a piece in front. -/
def StringScan.after (p : Piece) : StringScan → StringScan
  | .closed pieces rest => .closed (p :: pieces) rest
  | .broken pieces why => .broken (p :: pieces) why

/-- Reads a string after its opening quote. The four digits of an escape are looked for in the next four
bytes, so the text ends inside an escape only if fewer bytes are left. -/
def scanString : List Char → StringScan
  | [] => .broken [] .ends
  | '"' :: rest => .closed [] rest
  | '\\' :: 'u' :: a :: b :: c :: d :: rest =>
    match hexValue? a, hexValue? b, hexValue? c, hexValue? d with
    | some a, some b, some c, some d =>
      (scanString rest).after (.unit (((a * 16 + b) * 16 + c) * 16 + d))
    | _, _, _, _ => .broken [] .hex
  | '\\' :: 'u' :: rest =>
    .broken [] (if (String.ofList rest).utf8ByteSize < 4 then .ends else .hex)
  | '\\' :: e :: rest =>
    match escapedChar? e with
    | some c => (scanString rest).after (.char c)
    | none => .broken [] .escape
  | ['\\'] => .broken [] .ends
  | c :: rest => if c < ' ' then .broken [] .control else (scanString rest).after (.char c)

/-- Takes the letters of a word off a text; on failure, whether the text ended. -/
def scanWord : List Char → List Char → Except Bool (List Char)
  | [], rest => .ok rest
  | _ :: _, [] => .error true
  | w :: word, c :: rest => if c = w then scanWord word rest else .error false

/-- Splits the decimal digits off the front of a text. -/
def takeDigits (cs : List Char) : List Char × List Char :=
  (cs.takeWhile (·.isDigit), cs.dropWhile (·.isDigit))

/-- Reads digits of which there must be at least one; on failure, whether the text ended. -/
def scanDigits (cs : List Char) : Except Bool (List Char × List Char) :=
  match takeDigits cs with
  | ([], rest) => .error rest.isEmpty
  | (digits, rest) => .ok (digits, rest)

/-- Reads a fraction, if a point follows. -/
def scanFraction : List Char → Except Bool (Option (List Char) × List Char)
  | '.' :: rest => (scanDigits rest).map fun (digits, rest) => (some digits, rest)
  | rest => .ok (none, rest)

/-- Reads an exponent, if an `e` follows: whether it is negative, and its digits. -/
def scanExponent : List Char → Except Bool (Option (Bool × List Char) × List Char)
  | c :: rest =>
    if c = 'e' ∨ c = 'E' then
      (scanDigits (takeSign rest).2).map fun (digits, after) =>
        (some ((takeSign rest).1, digits), after)
    else .ok (none, c :: rest)
  | [] => .ok (none, [])

/-- Reads a number after its sign; on failure, whether the text ended. A leading zero stands alone. -/
def scanNumeral (negative : Bool) (cs : List Char) : Except Bool (Numeral × List Char) := do
  let (whole, rest) ← scanDigits cs
  if whole.head? = some '0' ∧ whole.length ≠ 1 then throw false
  let (fraction, rest) ← scanFraction rest
  let (exponent, rest) ← scanExponent rest
  return (⟨negative, whole, fraction, exponent⟩, rest)

/-! ## The rest is shorter

Every reader of a token leaves at most what it was given, which is why the scan ends.
-/

theorem scanString_rest_le {cs rest : List Char} {pieces : List Piece}
    (h : scanString cs = .closed pieces rest) : rest.length ≤ cs.length := by
  fun_induction scanString cs generalizing pieces rest with
  | case1 => simp at h
  | case2 => simp at h; simp [h]
  | case3 a b c d r a' b' c' d' _ _ _ _ ih =>
    cases hr : scanString r with
    | closed p s =>
      rw [hr] at h; simp only [StringScan.after, StringScan.closed.injEq] at h
      have := ih hr; obtain ⟨_, rfl⟩ := h; simp; omega
    | broken p w => rw [hr] at h; simp [StringScan.after] at h
  | case4 => simp at h
  | case5 => simp at h
  | case6 e r _ _ c _ ih =>
    cases hr : scanString r with
    | closed p s =>
      rw [hr] at h; simp only [StringScan.after, StringScan.closed.injEq] at h
      have := ih hr; obtain ⟨_, rfl⟩ := h; simp; omega
    | broken p w => rw [hr] at h; simp [StringScan.after] at h
  | case7 => simp at h
  | case8 => simp at h
  | case9 => simp at h
  | case10 c r _ _ _ _ _ _ ih =>
    cases hr : scanString r with
    | closed p s =>
      rw [hr] at h; simp only [StringScan.after, StringScan.closed.injEq] at h
      have := ih hr; obtain ⟨_, rfl⟩ := h; simp; omega
    | broken p w => rw [hr] at h; simp [StringScan.after] at h

theorem scanWord_rest_le {word cs rest : List Char} (h : scanWord word cs = .ok rest) :
    rest.length ≤ cs.length := by
  fun_induction scanWord word cs with
  | case1 => simp at h; simp [h]
  | case2 => simp at h
  | case3 => rename_i ih; have := ih h; simp; omega
  | case4 => simp at h

theorem scanDigits_rest_lt {cs rest digits : List Char} (h : scanDigits cs = .ok (digits, rest)) :
    rest.length < cs.length := by
  have whole : (takeDigits cs).1 ++ (takeDigits cs).2 = cs := List.takeWhile_append_dropWhile
  unfold scanDigits at h
  split at h
  · simp at h
  · rename_i ds r hne heq
    rw [heq] at whole
    simp only [Except.ok.injEq, Prod.mk.injEq] at h
    obtain ⟨rfl, rfl⟩ := h
    have : ds.length ≠ 0 := fun h0 => hne (List.eq_nil_of_length_eq_zero h0)
    rw [← whole]
    simp only [List.length_append]
    omega

theorem scanFraction_rest_le {cs rest : List Char} {fraction : Option (List Char)}
    (h : scanFraction cs = .ok (fraction, rest)) : rest.length ≤ cs.length := by
  unfold scanFraction at h
  split at h
  · rename_i r
    cases hd : scanDigits r with
    | error e => rw [hd] at h; simp [Except.map] at h
    | ok p =>
      rw [hd] at h
      simp only [Except.map, Except.ok.injEq, Prod.mk.injEq] at h
      have := scanDigits_rest_lt hd
      rw [← h.2]; simp; omega
  · simp at h; simp [h]

theorem takeSign_rest_le (cs : List Char) : (takeSign cs).2.length ≤ cs.length := by
  unfold takeSign; split <;> simp

theorem scanExponent_rest_le {cs rest : List Char} {exponent : Option (Bool × List Char)}
    (h : scanExponent cs = .ok (exponent, rest)) : rest.length ≤ cs.length := by
  unfold scanExponent at h
  split at h
  · rename_i c r
    split at h
    · cases hd : scanDigits (takeSign r).2 with
      | error e => rw [hd] at h; simp [Except.map] at h
      | ok p =>
        rw [hd] at h
        simp only [Except.map, Except.ok.injEq, Prod.mk.injEq] at h
        have := scanDigits_rest_lt hd
        have := takeSign_rest_le r
        rw [← h.2]; simp; omega
    · simp at h; simp [h]
  · simp at h; simp [h]

theorem scanNumeral_rest_lt {negative : Bool} {cs rest : List Char} {n : Numeral}
    (h : scanNumeral negative cs = .ok (n, rest)) : rest.length < cs.length := by
  simp only [scanNumeral, bind, Except.bind] at h
  split at h
  · simp at h
  · rename_i p hd
    split at h
    · simp [throw, throwThe, MonadExceptOf.throw] at h
    · split at h
      · simp at h
      · rename_i q hf
        split at h
        · simp at h
        · rename_i r he
          simp only [pure, Except.pure, Except.ok.injEq, Prod.mk.injEq] at h
          have h1 := scanDigits_rest_lt hd
          have h2 := scanFraction_rest_le hf
          have h3 := scanExponent_rest_le he
          rw [← h.2]
          omega

/-! ## The scan -/

/-- The tokens of a text, up to its end or to the first place where no token can be read. -/
def scan : List Char → List Token
  | [] => []
  | c :: cs =>
    if isBlank c then scan cs
    else match c with
      | '[' => .openArray :: scan cs
      | ']' => .closeArray :: scan cs
      | '\x7b' => .openObject :: scan cs
      | '\x7d' => .closeObject :: scan cs
      | ',' => .comma :: scan cs
      | ':' => .colon :: scan cs
      | '"' =>
        match _h : scanString cs with
        | .closed pieces rest => .string pieces :: scan rest
        | .broken pieces why => [.fault (.string pieces why)]
      | 'n' =>
        match _h : scanWord ['u', 'l', 'l'] cs with
        | .ok rest => .null :: scan rest
        | .error ends => [.fault (.word ends)]
      | 't' =>
        match _h : scanWord ['r', 'u', 'e'] cs with
        | .ok rest => .boolean true :: scan rest
        | .error ends => [.fault (.word ends)]
      | 'f' =>
        match _h : scanWord ['a', 'l', 's', 'e'] cs with
        | .ok rest => .boolean false :: scan rest
        | .error ends => [.fault (.word ends)]
      | '-' =>
        match _h : scanNumeral true cs with
        | .ok (n, rest) => .number n.number? :: scan rest
        | .error ends => [.fault (.numeral ends)]
      | c =>
        if c.isDigit then
          match _h : scanNumeral false (c :: cs) with
          | .ok (n, rest) => .number n.number? :: scan rest
          | .error ends => [.fault (.numeral ends)]
        else [.fault .stray]
termination_by cs => cs.length
decreasing_by all_goals
  simp only [List.length_cons]
  first
  | omega
  | have := scanString_rest_le ‹_›; omega
  | have := scanWord_rest_le ‹_›; omega
  | have := scanNumeral_rest_lt ‹_›; omega

end SchemaRegistry.Json
