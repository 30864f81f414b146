import SchemaRegistry.SortedMap
import SchemaRegistry.Text.Lowercase
import SchemaRegistry.Decimal.Numeral

/-!
# Settings

A `Setting` is what stands under a key of a configuration before it is known what the key means: a plain
value, a list, or a table of further settings. What comes from a file or from the environment remembers
its origin; a table that several layers contribute to has none.

`Setting.put` writes a setting under a key. A table does not replace what stands there but is merged into
it, key by key; everything else replaces what stands there.
-/

namespace SchemaRegistry

/-- A plain value. -/
inductive Scalar where
  | nothing
  | boolean (b : Bool)
  | integer (n : Int)
  | float (x : Float)
  | text (s : String)

/-- A setting. -/
inductive Setting where
  | scalar (origin : Option String) (value : Scalar)
  | list (origin : Option String) (items : List Setting)
  | table (origin : Option String) (members : List (String × Setting))

/-- The settings of a file or of the environment. -/
abbrev Layer := List (String × Setting)

namespace Setting

/-- The setting that says nothing. -/
def nothing : Setting := .scalar none .nothing

/-- The table without settings. -/
def emptyTable : Setting := .table none []

instance : Inhabited Setting := ⟨nothing⟩

/-- The origin and the members of a table; anything else counts as a new table. -/
def asTable : Setting → Option String × List (String × Setting)
  | .table origin members => (origin, members)
  | _ => (none, [])

/-- The origin and the items of a list; anything else counts as a new list. -/
def asList : Setting → Option String × List Setting
  | .list origin items => (origin, items)
  | _ => (none, [])

/-- The setting under a key of a table. -/
def get? (s : Setting) (key : String) : Option Setting := s.asTable.2.lookup key

/-- Puts a member in its place. -/
def setMember (target : Setting) (key : String) (s : Setting) : Setting :=
  .table target.asTable.1 (insertEntry key s target.asTable.2)

/-! ## Merging -/

mutual

/-- Writes a setting under a key, in lower case, of the target, which becomes a table if it is none. -/
def put (key : String) : Setting → Setting → Setting
  | .table _ members, target =>
    let key := Text.lowercase key
    target.setMember key (putAll members ((target.get? key).getD emptyTable))
  | s, target => target.setMember (Text.lowercase key) s

/-- Writes settings under their keys, one after the other. -/
def putAll : List (String × Setting) → Setting → Setting
  | [], target => target
  | (key, s) :: rest, target => putAll rest (put key s target)

end

end Setting

/-! ## Plain values -/

namespace Scalar

/-- A floating point number in plain text is written out in full, and a whole number has no point. -/
def plainLayout : Decimal.Layout := ⟨fun _ => true, false⟩

/-- A floating point number in a finding keeps its point. -/
def shownLayout : Decimal.Layout := ⟨fun _ => true, true⟩

/-- The text of a value where a text is wanted. -/
def toText? : Scalar → Option String
  | .nothing => none
  | .boolean b => some (toString b)
  | .integer n => some (toString n)
  | .float x => some (plainLayout.text x)
  | .text s => some s

/-- The words that are taken for a truth value, in lower case. -/
def booleanWord? (word : String) : Option Bool :=
  if word ∈ ["true", "on", "yes", "1"] then some true
  else if word ∈ ["false", "off", "no", "0"] then some false
  else none

/-- The truth value where one is wanted. A number is true unless it is zero. -/
def toBoolean? : Scalar → Option Bool
  | .nothing => none
  | .boolean b => some b
  | .integer n => some (n ≠ 0)
  | .float x => some (x != 0)
  | .text s => booleanWord? (Text.lowercase s)

/-- The value of a variable of the environment: a truth value, an integer or a number if it reads as one,
and a text otherwise. -/
def ofVariable (s : String) : Scalar :=
  if Text.lowercase s = "true" then .boolean true
  else if Text.lowercase s = "false" then .boolean false
  else match Decimal.readInteger? s.toList with
    | some n => .integer n
    | none =>
      match Decimal.readFloat? s.toList with
      | some x => .float x
      | none => .text s

end Scalar

end SchemaRegistry
