import SchemaRegistry.Diagnostic

/-!
# The index of a category

The registered definitions of one category, in the order of their registration, each with a `Producer`
that says how its artifact is obtained. Beside the list of slots there are three tables, so that a
conflict is noticed and a slot found without a search: the declared names by identifier, the
identifiers by declared name, and the positions by identifier.
-/

namespace SchemaRegistry

variable {m : Type → Type}

/-! ## Producers and slots -/

/-- How the artifact of a registered definition is obtained. -/
inductive Producer (m : Type → Type) where
  /-- It is what the source has under this identifier. -/
  | fetch (source : Source m) (category : Category) (identifier : String)
  /-- It is built from the declaration. -/
  | build (builder : Builder m) (declaration : Declaration)

namespace Producer

/-- The producer for a definition. An import asks for nothing but category and identifier. -/
def ofDefinition (d : Definition m) : Producer m :=
  match d.origin with
  | .imported source => .fetch source d.category d.identifier
  | .built builder => .build builder d.toDeclaration

/-- Obtains the artifact; a source may not have it. -/
def realize [Monad m] : Producer m → m (Option Artifact)
  | .fetch source category identifier => source.find category identifier
  | .build builder declaration => do return some (← builder declaration)

/-- The name of the source of an import. -/
def sourceName? : Producer m → Option String
  | .fetch source _ _ => some source.name
  | .build _ _ => none

/-- The producer as it is shown. -/
def text : Producer m → String
  | .fetch source category identifier =>
    let category := match category with
      | .type => "Type"
      | .directive => "Directive"
    "Import \x7b source: " ++ Text.quoted source.name ++ ", category: " ++ category ++
      ", identifier: " ++ Text.quoted identifier ++ " \x7d"
  | .build _ declaration =>
    "Build \x7b identifier: " ++ Text.quoted declaration.identifier ++ " \x7d"

end Producer

/-- A registered definition. -/
structure Slot (m : Type → Type) where
  identifier : String
  producer : Producer m

/-! ## The index -/

/-- The registered definitions of one category. -/
structure Index (m : Type → Type) where
  /-- The declared names by identifier. -/
  names : SortedMap String := ∅
  /-- For each declared name the identifier that was registered with it first. -/
  aliases : SortedMap String := ∅
  /-- The slots in the order of registration. -/
  slots : List (Slot m) := []
  /-- The positions of the slots by identifier. -/
  positions : SortedMap Nat := ∅

namespace Index

/-- Registers a definition in a new slot at the end. -/
def insert (index : Index m) (d : Definition m) : Index m where
  names := index.names.insert d.identifier d.name
  aliases := index.aliases.insertIfNew d.name d.identifier
  slots := index.slots ++ [⟨d.identifier, .ofDefinition d⟩]
  positions := index.positions.insert d.identifier index.slots.length

/-- The slot with an identifier. -/
def find? (index : Index m) (identifier : String) : Option (Slot m) := do
  let position ← index.positions.get? identifier
  index.slots[position]?

/-- The slot with an identifier or else with a declared name. -/
def resolve? (index : Index m) (key : String) : Option (Slot m) :=
  match index.find? key with
  | some slot => some slot
  | none => do index.find? (← index.aliases.get? key)

end Index

end SchemaRegistry
