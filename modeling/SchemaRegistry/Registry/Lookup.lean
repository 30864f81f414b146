import SchemaRegistry.Registry.Basic

/-!
# Lookups

An artifact is not obtained before it is asked for. `Registry.lookup` answers for callers, who may use
the identifier or the declared name; `Registry.find` answers for other registries that import from this
one, by identifier only. `Registry.materialize` asks for everything.

All of them are given the way in which a slot is realized. `Slot.realize` obtains the artifact anew each
time; `Slot.realizeOnce` keeps the first answer in a `Cache`, an answer that there is no artifact
included.
-/

namespace SchemaRegistry

variable {m : Type → Type}

/-! ## Realizing a slot -/

/-- A way to realize the slots of a category. -/
abbrev Realization (m n : Type → Type) := Category → Slot m → n (Option Artifact)

/-- Obtains the artifact anew. -/
def Slot.realize [Monad m] : Realization m m := fun _ slot => slot.producer.realize

/-- The answers that have been obtained, by the identifier of the slot. -/
structure Cache where
  types : SortedMap (Option Artifact) := ∅
  directives : SortedMap (Option Artifact) := ∅

namespace Cache

/-- The answer for a slot, if it has been obtained. -/
def get? (cache : Cache) : Category → String → Option (Option Artifact)
  | .type, identifier => cache.types.get? identifier
  | .directive, identifier => cache.directives.get? identifier

/-- Keeps an answer. -/
def insert (cache : Cache) (category : Category) (identifier : String) (answer : Option Artifact) :
    Cache :=
  match category with
  | .type => { cache with types := cache.types.insert identifier answer }
  | .directive => { cache with directives := cache.directives.insert identifier answer }

end Cache

/-- Obtains the artifact the first time and keeps the answer. -/
def Slot.realizeOnce [Monad m] : Realization m (StateT Cache m) := fun category slot => do
  match (← get).get? category slot.identifier with
  | some answer => return answer
  | none =>
    let answer ← slot.producer.realize
    modify fun cache => cache.insert category slot.identifier answer
    return answer

/-! ## Asking a registry -/

/-- A registered import whose source has no artifact for it. -/
structure MissingImport where
  category : Category
  identifier : String
  source : String
deriving DecidableEq

/-- The finding in words. -/
def MissingImport.message (e : MissingImport) : String :=
  "Imported " ++ e.category.name ++ " '" ++ e.identifier ++ "' not found in source '" ++ e.source ++
    "'"

namespace Registry

variable {n : Type → Type} [Monad n]

/-- The artifact under an identifier or else a declared name. -/
def lookup (realize : Realization m n) (r : Registry m) (category : Category) (key : String) :
    n (Option Artifact) :=
  match (r.index category).resolve? key with
  | some slot => realize category slot
  | none => return none

/-- The artifact under an identifier. -/
def find (realize : Realization m n) (r : Registry m) (category : Category) (identifier : String) :
    n (Option Artifact) :=
  match (r.index category).find? identifier with
  | some slot => realize category slot
  | none => return none

/-- Realizes slots in their order, up to the first one without artifact. -/
def materializeSlots (realize : Realization m n) (category : Category) :
    List (Slot m) → n (Except MissingImport Nat)
  | [] => return .ok 0
  | slot :: rest => do
    match ← realize category slot with
    | none => return .error ⟨category, slot.identifier, slot.producer.sourceName?.getD ""⟩
    | some _ => return (← materializeSlots realize category rest).map (· + 1)

/-- Realizes every slot, types before directives; the number of artifacts, or the first import that is
missing. -/
def materialize (realize : Realization m n) (r : Registry m) : n (Except MissingImport Nat) := do
  match ← materializeSlots realize .type r.types.slots with
  | .error missing => return .error missing
  | .ok types =>
    return (← materializeSlots realize .directive r.directives.slots).map (types + ·)

/-- The registry as a source to import from. -/
def asSource [Monad m] (name : String) (r : Registry m) : Source m := ⟨name, r.find Slot.realize⟩

end Registry

end SchemaRegistry
