import SchemaRegistry.Decimal.Shortest

/-!
# Writing a floating point number

The digits of a number are its shortest decimal; a `Layout` says how they are set: in which range of
magnitudes they are written out around a point, whether a whole number keeps a point, and what the
values that are no numbers are called.
-/

namespace SchemaRegistry.Decimal

/-- How the digits of a number are set. -/
structure Layout where
  /-- Whether a number whose first digit stands for `10 ^ magnitude` is written without exponent. -/
  positional : Int → Bool
  /-- A whole number written without exponent ends in `.0`. -/
  keepsPoint : Bool

namespace Layout

/-- Digits around a point. -/
def setPositional (l : Layout) (digits : List Char) (exponent : Int) : List Char :=
  let whole : Int := digits.length + exponent
  if 0 ≤ exponent then
    digits ++ List.replicate exponent.toNat '0' ++ if l.keepsPoint then ['.', '0'] else []
  else if 0 < whole then
    digits.take whole.toNat ++ ['.'] ++ digits.drop whole.toNat
  else
    ['0', '.'] ++ List.replicate (-whole).toNat '0' ++ digits

/-- One digit before the point, the others after it, and the exponent with its sign. -/
def setScientific (digits : List Char) (magnitude : Int) : List Char :=
  let mantissa := match digits with
    | first :: second :: rest => first :: '.' :: second :: rest
    | _ => digits
  let sign := if magnitude < 0 then '-' else '+'
  mantissa ++ ['e', sign] ++ Nat.toDigits 10 magnitude.natAbs

/-- The text of a decimal. -/
def chars (l : Layout) (d : Decimal) : List Char :=
  let digits := Nat.toDigits 10 d.digits
  let magnitude : Int := digits.length + d.exponent - 1
  if l.positional magnitude then l.setPositional digits d.exponent else setScientific digits magnitude

/-- The text of a floating point number. -/
def text (l : Layout) (x : Float) : String :=
  let magnitude :=
    if x == 0 then l.chars ⟨0, 0⟩
    else l.chars (shortest (Binary.ofBits x.toBits))
  if x.isNaN then "NaN"
  else if x.isInf then if x < 0 then "-inf" else "inf"
  else String.ofList (if x.toBits >>> 63 = 1 then '-' :: magnitude else magnitude)

end Layout

/-- The floating point number nearest to `digits · 10 ^ exponent`. A magnitude far outside the range of
the format is settled before any power is computed. -/
def toFloat (d : Decimal) : Float :=
  let magnitude : Int := (Nat.toDigits 10 d.digits).length + d.exponent
  if d.digits = 0 then 0
  else if 310 < magnitude then 1 / 0
  else if magnitude < -330 then 0
  else Float.ofScientific d.digits (d.exponent < 0) d.exponent.natAbs

end SchemaRegistry.Decimal
