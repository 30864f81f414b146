import SchemaRegistry.Toml.Value
import SchemaRegistry.SortedMap

/-!
# Tables under construction

The lines of a document build its tables piece by piece, and no table may be defined twice. A `Draft` is
a table as far as it has been built; every table inside remembers what it owes its existence to, and
that decides what may still be added to it.
-/

namespace SchemaRegistry.Toml

/-- What a table owes its existence to. -/
inductive Standing where
  /-- A header of its own. -/
  | headed
  /-- The header of a table inside it. -/
  | implied
  /-- A key with dots. -/
  | dotted
deriving DecidableEq

/-- What stands under a key. -/
inductive Node where
  /-- A value, to which nothing can be added. -/
  | value (v : Value)
  | table (standing : Standing) (members : List (String × Node))
  /-- The tables that stand under one key, the newest and the ones before it, the last one first. -/
  | tables (newest : List (String × Node)) (older : List (List (String × Node)))

/-- A table as far as it has been built, in key order. -/
abbrev Draft := List (String × Node)

/-- A place in a document: the keys of the tables around it and its own key. -/
structure KeyPath where
  tables : List String
  key : String

namespace KeyPath

/-- All keys. -/
def keys (p : KeyPath) : List String := p.tables ++ [p.key]

end KeyPath

namespace Draft

/-! ## Building -/

/-- Changes the table at the end of a path. Tables that are missing on the way are made, with the given
standing, and `opens` says which of the others may be passed; among the tables under one key it is the
newest that is passed. -/
def change (made : Standing) (opens : Standing → Bool)
    (f : Standing → Draft → Option Draft) : List String → Standing → Draft → Option Draft
  | [], standing, d => f standing d
  | key :: path, _, d => do
    let node ← match d.lookup key with
      | none => (change made opens f path made []).map (Node.table made)
      | some (.table standing inner) =>
        if opens standing then (change made opens f path standing inner).map (Node.table standing)
        else none
      | some (.tables newest older) =>
        (change made opens f path .headed newest).map (Node.tables · older)
      | some (.value _) => none
    return insertEntry key node d

/-- Adds something to the table at the end of a path of headers. -/
def changeHeaded (path : List String) (f : Draft → Option Draft) (d : Draft) : Option Draft :=
  change .implied (fun _ => true) (fun _ => f) path .headed d

/-- Opens a table by its header. It may be there already if only the headers of tables inside it have
been met. -/
def openTable (path : KeyPath) : Draft → Option Draft :=
  changeHeaded path.tables fun d =>
    match d.lookup path.key with
    | none => some (insertEntry path.key (.table .headed []) d)
    | some (.table .implied inner) => some (insertEntry path.key (.table .headed inner) d)
    | some _ => none

/-- Opens a further table under a key by its header. -/
def openNext (path : KeyPath) : Draft → Option Draft :=
  changeHeaded path.tables fun d =>
    match d.lookup path.key with
    | none => some (insertEntry path.key (.tables [] []) d)
    | some (.tables newest older) => some (insertEntry path.key (.tables [] (newest :: older)) d)
    | some _ => none

/-- Sets a value in a table. The tables on the way must not have headers, and the last of them must have
been made by keys with dots; no value is set twice. -/
def assign (path : KeyPath) (v : Value) (d : Draft) : Option Draft :=
  change .dotted (· ≠ .headed)
    (fun standing d =>
      if path.tables ≠ [] ∧ standing ≠ .dotted then none
      else if (d.lookup path.key).isSome then none
      else some (insertEntry path.key (.value v) d))
    path.tables .headed d

/-- Sets values one after the other. -/
def assignAll : List (KeyPath × Value) → Draft → Option Draft
  | [], d => some d
  | (path, v) :: rest, d => do assignAll rest (← d.assign path v)

end Draft

/-! ## The finished value -/

mutual

/-- The value of what stands under a key. -/
def Node.finish : Node → Value
  | .value v => v
  | .table _ members => .table (finishMembers members)
  | .tables newest older => .array (finishTables [.table (finishMembers newest)] older)

/-- The values of the members of a table. -/
def finishMembers : List (String × Node) → List (String × Value)
  | [] => []
  | (key, node) :: rest => (key, node.finish) :: finishMembers rest

/-- The values of tables under one key, the last one first, in front of those that came after them. -/
def finishTables (later : List Value) : List (List (String × Node)) → List Value
  | [] => later
  | members :: rest => finishTables (.table (finishMembers members) :: later) rest

end

/-- The members of the finished table. -/
def Draft.finish (d : Draft) : List (String × Value) := finishMembers d

end SchemaRegistry.Toml
