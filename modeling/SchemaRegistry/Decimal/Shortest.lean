/-!
# The shortest decimal of a binary number

A binary floating point number stands for an interval of reals: all that round to it. Among the
decimals `digits · 10 ^ exponent` in that interval the shortest has the fewest digits, and of several
with equally few the one nearest to the number itself. Everything is computed on natural numbers, so
there is no rounding on the way.
-/

namespace SchemaRegistry

/-- A positive binary number `significand · 2 ^ exponent`. -/
structure Binary where
  significand : Nat
  exponent : Int
  /-- The next smaller number is only half as far away as the next larger one. -/
  narrowBelow : Bool

/-- The magnitude of a finite, nonzero double precision number given by its bits. -/
def Binary.ofBits (bits : UInt64) : Binary :=
  let fraction := (bits &&& 0xFFFFFFFFFFFFF).toNat
  let biased := ((bits >>> 52) &&& 0x7FF).toNat
  if biased = 0 then ⟨fraction, -1074, false⟩
  else ⟨fraction + 0x10000000000000, (biased : Int) - 1075, fraction = 0 ∧ 1 < biased⟩

/-- A decimal number `digits · 10 ^ exponent`. -/
structure Decimal where
  digits : Nat
  exponent : Int
deriving DecidableEq, Repr

namespace Decimal

/-- The multiple of `10 ^ exponent` that rounds to `b` and lies nearest to it, if one rounds to it:
`digits · 10 ^ exponent` is compared with `b` and with the two points half-way to its neighbours, all
of them multiplied by the same positive number. A half-way point rounds to the even significand. -/
def onGrid? (b : Binary) (exponent : Int) : Option Nat :=
  let enlarge := Nat.pow 2 (b.exponent - 2).toNat * Nat.pow 10 (-exponent).toNat
  let grid := Nat.pow 2 (2 - b.exponent).toNat * Nat.pow 10 exponent.toNat
  let value := 4 * b.significand * enlarge
  let low := (4 * b.significand - if b.narrowBelow then 1 else 2) * enlarge
  let high := (4 * b.significand + 2) * enlarge
  let inside (x : Nat) : Bool :=
    if b.significand % 2 = 0 then low ≤ x ∧ x ≤ high else low < x ∧ x < high
  let below := value / grid
  let above := below + 1
  match inside (below * grid), inside (above * grid) with
  | false, false => none
  | true, false => some below
  | false, true => some above
  | true, true =>
    let under := value - below * grid
    let beyond := above * grid - value
    if under < beyond then some below
    else if beyond < under then some above
    else if below % 2 = 0 then some below else some above

/-- The first grid, from `10 ^ exponent` downwards, with a point that rounds to `b`. -/
def firstGrid (b : Binary) : Nat → Int → Decimal
  | 0, exponent => ⟨0, exponent⟩
  | grids + 1, exponent =>
    match onGrid? b exponent with
    | some digits => ⟨digits, exponent⟩
    | none => firstGrid b grids (exponent - 1)

/-- The shortest decimal that rounds to `b`. The search starts above the magnitude of `b`; seventeen
digits are always enough, so twenty grids are. -/
def shortest (b : Binary) : Decimal :=
  let magnitude : Int := (b.significand.log2 : Int) + 1 + b.exponent
  firstGrid b 20 (magnitude * 30103 / 100000 + 1)

end Decimal

end SchemaRegistry
