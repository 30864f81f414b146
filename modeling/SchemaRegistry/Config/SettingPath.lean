import SchemaRegistry.Config.Setting

/-!
# Paths to settings

The key of a setting at the outermost level may be a path through tables, with dots between the keys, and
through lists, with a position in brackets. A key that cannot be read as a path is a plain key.

A position before the first item cannot be written to. One beyond the last item always can: the list grows as
far as is needed, whatever that takes.
-/

namespace SchemaRegistry

/-- A step of a path. -/
inductive SettingStep where
  | key (name : String)
  /-- An item by its position; a negative position counts from the end. -/
  | item (position : Int)

/-- A way to a setting. -/
abbrev SettingPath := List SettingStep

namespace SettingPath

/-! ## Reading -/

/-- Whether a character may stand in a key of a path. -/
def isKeyChar (c : Char) : Bool := c.isAlphanum ∨ c = '_' ∨ c = '-' ∨ c = ' '

/-- Reads a key at the front of a text. -/
def readKey (cs : List Char) : Option (SettingStep × List Char) :=
  let key := cs.takeWhile isKeyChar
  if key.isEmpty then none else some (.key (String.ofList key), cs.dropWhile isKeyChar)

/-- Reads a position, with blanks around it, and the closing bracket. -/
def readPosition (cs : List Char) : Option (SettingStep × List Char) := do
  let isBlank (c : Char) : Bool := c = ' ' ∨ c = '\t'
  let cs := cs.dropWhile isBlank
  let (negative, cs) := match cs with
    | '-' :: rest => (true, rest)
    | cs => (false, cs)
  let digits := cs.takeWhile (·.isDigit)
  if digits.isEmpty then none
  let position ← Decimal.signed64? (Decimal.signedValue negative digits)
  match (cs.dropWhile (·.isDigit)).dropWhile isBlank with
  | ']' :: rest => some (.item position, rest)
  | _ => none

/-- Reads at most `bound` steps to the end of a text, each after its mark. -/
def readSteps : Nat → List Char → Option SettingPath
  | _, [] => some []
  | 0, _ => none
  | bound + 1, '.' :: rest => do
    let (step, rest) ← readKey rest
    return step :: (← readSteps bound rest)
  | bound + 1, '[' :: rest => do
    let (step, rest) ← readPosition rest
    return step :: (← readSteps bound rest)
  | _, _ => none

/-- The path that a key stands for. -/
def ofKey (key : String) : SettingPath :=
  let cs := key.toList
  let path := do
    let (step, rest) ← readKey cs
    return step :: (← readSteps rest.length rest)
  path.getD [.key key]

end SettingPath

namespace Setting

/-- The index of a position in a list of the given length; `none` if it lies before the first item. -/
def index? (length : Nat) (position : Int) : Option Nat :=
  if 0 ≤ position then some position.toNat
  else if position.natAbs ≤ length then some (length - position.natAbs)
  else none

/-- Puts an item in its place; a list that is too short is filled up. -/
def setItem (target : Setting) (position : Int) (s : Option Setting → Option Setting) :
    Option Setting := do
  let (origin, items) := target.asList
  let i ← index? items.length position
  let items := items ++ List.replicate (i + 1 - items.length) nothing
  return .list origin (items.set i (← s items[i]?))

/-- Writes a setting at the end of a path. What is on the way becomes a table or a list as the path
wants it; `none` if the path goes to an item before the first one of a list. -/
def putAt (s : Setting) : SettingPath → Setting → Option Setting
  | [], target => some target
  | [.key name], target => some (put name s target)
  | [.item position], target => target.setItem position fun _ => some s
  | .key name :: path, target => do
    let name := Text.lowercase name
    return target.setMember name (← putAt s path ((target.get? name).getD nothing))
  | .item position :: path, target =>
    target.setItem position fun old => putAt s path (old.getD nothing)

/-- Adds a layer on top of the settings so far. -/
def addLayer (target : Setting) (layer : Layer) : Option Setting :=
  layer.foldlM (fun target e => putAt e.2 (SettingPath.ofKey e.1) target) target

/-- The settings of layers, each on top of those before it. -/
def ofLayers (layers : List Layer) : Option Setting := layers.foldlM addLayer emptyTable

end Setting

end SchemaRegistry
