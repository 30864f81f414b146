import SchemaRegistry.Toml.Moment
import SchemaRegistry.Text.Hexadecimal

/-!
# Words in TOML

A value that is neither quoted nor bracketed is a word: a boolean, a number, or a moment. A word goes up
to the next character that cannot belong to it; a date may be followed by a blank and a time of day.
-/

namespace SchemaRegistry.Toml

/-! ## Numbers -/

/-- Drops the underscores among digits. Each has to stand between two digits. -/
def ungroup (isDigit : Char → Bool) : List Char → Option (List Char)
  | [] => none
  | [c] => if isDigit c then some [c] else none
  | c :: '_' :: rest => if isDigit c then (ungroup isDigit rest).map (c :: ·) else none
  | c :: rest => if isDigit c then (ungroup isDigit rest).map (c :: ·) else none

/-- The digits of a decimal integer, which has no leading zero. -/
def decimalDigits? (cs : List Char) : Option (List Char) := do
  let digits ← ungroup (·.isDigit) cs
  if digits.head? = some '0' ∧ digits.length ≠ 1 then none else some digits

/-- The value of digits in a base up to sixteen. -/
def valueInBase? (base : Nat) (cs : List Char) : Option Nat := do
  let isDigit (c : Char) : Bool := (Text.hexValue? c).any (· < base)
  let digits ← ungroup isDigit cs
  return digits.foldl (fun n c => base * n + (Text.hexValue? c).getD 0) 0

/-- Reads an integer: a decimal one with an optional sign, or one in another base without sign. -/
def readInteger? : List Char → Option Int
  | '0' :: 'x' :: digits => do Decimal.signed64? (← valueInBase? 16 digits)
  | '0' :: 'o' :: digits => do Decimal.signed64? (← valueInBase? 8 digits)
  | '0' :: 'b' :: digits => do Decimal.signed64? (← valueInBase? 2 digits)
  | cs => do
    let (negative, digits) := Decimal.takeSign cs
    Decimal.signed64? (Decimal.signedValue negative (← decimalDigits? digits))

/-- Reads the exponent of a number. -/
def readExponent? (cs : List Char) : Option Int := do
  let (negative, digits) := Decimal.takeSign cs
  return Decimal.signedValue negative (← ungroup (·.isDigit) digits)

/-- Reads a number with a fraction, an exponent or both. A positive number that is too large is refused; a
negative one counts as infinite. -/
def readDecimal? (cs : List Char) : Option Float := do
  let (negative, magnitude) := Decimal.takeSign cs
  let (mantissa, exponent) := Decimal.cut (fun c => c = 'e' ∨ c = 'E') magnitude
  let (whole, fraction) := Decimal.cut (· = '.') mantissa
  let whole ← decimalDigits? whole
  if fraction.isNone ∧ exponent.isNone then none
  let fraction ← match fraction with
    | none => some []
    | some digits => ungroup (·.isDigit) digits
  let exponent ← match exponent with
    | none => some 0
    | some digits => readExponent? digits
  let x := Decimal.signedFloat negative (Decimal.ofDigits whole fraction exponent).toFloat
  if x.isInf ∧ ¬negative then none else some x

/-- Reads the name of a value that is no number, perhaps after a sign. -/
def readNonNumber? (cs : List Char) : Option Float :=
  match Decimal.takeSign cs with
  | (negative, ['i', 'n', 'f']) => some (Decimal.signedFloat negative (1 / 0))
  | (_, ['n', 'a', 'n']) => some (0 / 0)
  | _ => none

/-! ## Words -/

/-- Whether a character can belong to a word. -/
def isWordChar (c : Char) : Bool :=
  c.isAlphanum ∨ c = '+' ∨ c = '-' ∨ c = '_' ∨ c = '.' ∨ c = ':'

/-- Reads a whole text as a boolean or a number. -/
def readPlain? (cs : List Char) : Option Value :=
  if cs = ['t', 'r', 'u', 'e'] then some (.boolean true)
  else if cs = ['f', 'a', 'l', 's', 'e'] then some (.boolean false)
  else (readInteger? cs).map .integer <|> (readDecimal? cs).map .float <|>
    (readNonNumber? cs).map .float

/-- Reads a word. -/
def readWord : Reader Value := fun cs =>
  let word := cs.takeWhile isWordChar
  let rest := cs.dropWhile isWordChar
  match Moment.read? word, rest with
  | some (.date d), ' ' :: c :: rest =>
    if c.isDigit then do
      let time := (c :: rest).takeWhile isWordChar
      let moment ← Moment.readRest d time
      return (.moment (String.ofList moment.text), (c :: rest).dropWhile isWordChar)
    else some (.moment (String.ofList d.text), ' ' :: c :: rest)
  | some moment, rest => some (.moment (String.ofList moment.text), rest)
  | none, rest => (readPlain? word).map fun v => (v, rest)

end SchemaRegistry.Toml
