import SchemaRegistry.Decimal.Layout

/-!
# Reading numbers

The value of a row of digits, and the two ways in which a number is written in plain text: an integer of
64 bits, and a floating point number, which also has names for the values that are no numbers.
-/

namespace SchemaRegistry.Decimal

/-- The value of a row of decimal digits. -/
def digitsValue (digits : List Char) : Nat :=
  digits.foldl (fun n d => 10 * n + (d.toNat - '0'.toNat)) 0

/-- The number whose digits stand on both sides of a point, times a power of ten. -/
def ofDigits (whole fraction : List Char) (exponent : Int) : Decimal :=
  ⟨digitsValue (whole ++ fraction), exponent - fraction.length⟩

/-- Takes a sign off a text: whether it is a minus. -/
def takeSign : List Char → Bool × List Char
  | '+' :: rest => (false, rest)
  | '-' :: rest => (true, rest)
  | rest => (false, rest)

/-- Digits of which there is at least one. -/
def isNumeral (cs : List Char) : Bool := !cs.isEmpty && cs.all (·.isDigit)

/-- The integer, if 64 bits hold it with its sign. -/
def signed64? (n : Int) : Option Int :=
  if -0x8000000000000000 ≤ n ∧ n < 0x8000000000000000 then some n else none

/-- The signed value of a row of digits. -/
def signedValue (negative : Bool) (digits : List Char) : Int :=
  if negative then -(digitsValue digits : Int) else digitsValue digits

/-- The floating point number with a sign. -/
def signedFloat (negative : Bool) (x : Float) : Float := if negative then -x else x

/-- Reads an integer: digits, perhaps after a sign. -/
def readInteger? (cs : List Char) : Option Int :=
  let (negative, digits) := takeSign cs
  if isNumeral digits then signed64? (signedValue negative digits) else none

/-- Cuts a text at the first character that `p` holds of; the second part begins after it. -/
def cut (p : Char → Bool) (cs : List Char) : List Char × Option (List Char) :=
  match cs.dropWhile (!p ·) with
  | [] => (cs, none)
  | _ :: rest => (cs.takeWhile (!p ·), some rest)

/-- Reads the exponent of a number. -/
def readExponent? (cs : List Char) : Option Int :=
  let (negative, digits) := takeSign cs
  if isNumeral digits then some (signedValue negative digits) else none

/-- Reads a magnitude: digits with a point before, among or after them, and perhaps an exponent. -/
def readMagnitude? (cs : List Char) : Option Decimal := do
  let (mantissa, exponent) := cut (fun c => c = 'e' ∨ c = 'E') cs
  let exponent ← match exponent with
    | none => some 0
    | some digits => readExponent? digits
  let (whole, fraction) := cut (· = '.') mantissa
  let fraction := fraction.getD []
  if isNumeral (whole ++ fraction) then some (ofDigits whole fraction exponent) else none

/-- Reads a floating point number, perhaps after a sign. The values that are no numbers have names whose
case does not matter. -/
def readFloat? (cs : List Char) : Option Float := do
  let (negative, magnitude) := takeSign cs
  let word := magnitude.map Char.toLower
  if word = ['i', 'n', 'f'] ∨ word = ['i', 'n', 'f', 'i', 'n', 'i', 't', 'y'] then
    return signedFloat negative (1 / 0)
  if word = ['n', 'a', 'n'] then return 0 / 0
  return signedFloat negative (← readMagnitude? magnitude).toFloat

end SchemaRegistry.Decimal
