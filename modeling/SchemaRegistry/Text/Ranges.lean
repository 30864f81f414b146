/-!
# Tables of code points

A set of characters is given by a table of inclusive ranges of code points in increasing order.
-/

namespace SchemaRegistry.Text

/-- Whether a code point lies in one of the ranges of `table` from position `lo` up to but not
including `hi`. The ranges increase, so halving the part that is left is enough. -/
def liesIn (table : Array (Nat × Nat)) (code lo hi : Nat) : Bool :=
  if lo < hi then
    match table[(lo + hi) / 2]? with
    | none => false
    | some (first, last) =>
      if code < first then liesIn table code lo ((lo + hi) / 2)
      else if last < code then liesIn table code ((lo + hi) / 2 + 1) hi
      else true
  else false
termination_by hi - lo

/-- Whether a character lies in one of the ranges of a table. -/
def isIn (table : Array (Nat × Nat)) (c : Char) : Bool := liesIn table c.toNat 0 table.size

end SchemaRegistry.Text
