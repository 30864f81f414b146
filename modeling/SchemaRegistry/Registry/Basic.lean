import SchemaRegistry.Registry.Index
import SchemaRegistry.Rule

/-!
# The registry

Definitions are registered one after the other. One that conflicts with an earlier registration of its
category is not registered and reported instead, so the first occurrence wins: an identifier is taken
once in each category, and a name once among the types.

Which types implement an interface and what is exported is noted of every definition, registered or not.
-/

namespace SchemaRegistry

variable {m : Type → Type}

/-- The tables of an assembled schema. -/
structure Registry (m : Type → Type) where
  types : Index m := {}
  directives : Index m := {}
  /-- For each interface the identifiers of the types that declare it. -/
  implementors : SortedMap SortedSet := ∅
  exports : SortedSet := ∅
  diagnostics : List Diagnostic := []

/-! ## Conflicts -/

/-- The finding that an identifier is taken, described as `artifact`. -/
def Index.identifierConflict (artifact : String) (index : Index m) (d : Definition m) :
    List Diagnostic :=
  if index.names.contains d.identifier then
    [.ofDefinition .uniqueNames d artifact d.identifier]
  else []

/-- The finding that a declared name is taken, described as `artifact`. -/
def Index.nameConflict (artifact : String) (index : Index m) (d : Definition m) :
    List Diagnostic :=
  if index.aliases.contains d.name then [.ofDefinition .uniqueNames d artifact d.name] else []

/-- The findings against registering a definition in the index of its category. Names of directives need
not be unique. -/
def Index.conflicts (index : Index m) (d : Definition m) : List Diagnostic :=
  match d.category with
  | .type =>
    index.identifierConflict "Type identifier" d ++ index.nameConflict "Type name" d
  | .directive => index.identifierConflict "Directive identifier" d

namespace Registry

/-- The index of a category. -/
def index (r : Registry m) : Category → Index m
  | .type => r.types
  | .directive => r.directives

/-- The registry with another index for a category. -/
def withIndex (r : Registry m) (category : Category) (index : Index m) : Registry m :=
  match category with
  | .type => { r with types := index }
  | .directive => { r with directives := index }

/-! ## Registration -/

/-- Notes the interfaces that a type declares. -/
def noteInterfaces (implementors : SortedMap SortedSet) (d : Definition m) : SortedMap SortedSet :=
  if d.isType then
    d.interfaces.foldl
      (fun table i => table.insert i (((table.get? i).getD ∅).insert d.identifier))
      implementors
  else implementors

/-- Notes whether a definition is exported. -/
def noteExport (builtinSource : String) (exports : SortedSet) (d : Definition m) : SortedSet :=
  if d.isExported builtinSource then exports.insert d.identifier else exports

/-- Registers a definition, or reports the conflicts that stand against it. -/
def register (builtinSource : String) (r : Registry m) (d : Definition m) : Registry m :=
  let index := r.index d.category
  let conflicts := index.conflicts d
  let noted : Registry m := { r with
    implementors := noteInterfaces r.implementors d
    exports := noteExport builtinSource r.exports d
    diagnostics := r.diagnostics ++ conflicts }
  if conflicts.isEmpty then noted.withIndex d.category (index.insert d) else noted

/-- Registers definitions in their order; `diagnostics` are the findings so far. -/
def ofDefinitions (builtinSource : String) (ds : List (Definition m))
    (diagnostics : List Diagnostic) : Registry m :=
  ds.foldl (register builtinSource) { diagnostics }

/-! ## Tables -/

/-- Whether nothing was found wrong. -/
def isValid (r : Registry m) : Bool := r.diagnostics.isEmpty

/-- The identifiers of a category in the order of registration. -/
def identifiers (r : Registry m) (category : Category) : List String :=
  (r.index category).slots.map (·.identifier)

/-- The identifiers of the types that declare an interface. -/
def implementorsOf (r : Registry m) (interface : String) : List String :=
  ((r.implementors.get? interface).getD ∅).toList

/-- Whether an identifier is exported. -/
def isExported (r : Registry m) (identifier : String) : Bool := r.exports.contains identifier

end Registry

end SchemaRegistry
