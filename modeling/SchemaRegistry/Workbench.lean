import SchemaRegistry.Assembly
import SchemaRegistry.Document

/-!
# A workbench

A workbench holds a schema while it is being worked on: definitions with their descriptions, findings,
sources to import from, and the registries that have been assembled so far. A registry can become a
source itself, so registries import from each other in chains.

Every registry realizes each of its slots at most once. What the registries have realized, and how often
builders ran that count their runs, is kept on a `Shelf` apart from the registries themselves.
-/

namespace SchemaRegistry

/-! ## The shelf -/

/-- What the registries of a workbench have realized. -/
structure Shelf where
  /-- The answers of each registry, by its number. -/
  caches : List Cache := []
  /-- How often counting builders ran. -/
  builds : Nat := 0

/-- Work that may realize artifacts. -/
abbrev Work := StateM Shelf

/-- Works on the answers of one registry. -/
def Shelf.within (number : Nat) {α : Type} (work : StateT Cache Work α) : Work α := do
  let (a, cache) ← work.run ((← get).caches[number]?.getD {})
  modify fun shelf => { shelf with caches := shelf.caches.set number cache }
  return a

/-- A builder that counts its runs. -/
def Builder.counting : Builder Work := fun d => do
  modify fun shelf => { shelf with builds := shelf.builds + 1 }
  return .ofDeclaration d

/-- A builder that marks what it builds: the name ends in an exclamation mark, and an attribute holds the
line of the declaration. -/
def Builder.marking {m : Type → Type} [Monad m] : Builder m := fun d =>
  let a := Artifact.ofDeclaration d
  return { a with
    name := a.name ++ "!", attrs := a.attrs.insert "line" (.ofNat d.location.line.toNat) }

/-- A registry whose answers are kept on the shelf. -/
structure ShelvedRegistry where
  number : Nat
  registry : Registry Work

namespace ShelvedRegistry

/-- Realizes a slot once and for all. -/
def realize (r : ShelvedRegistry) : Realization Work Work := fun category slot =>
  Shelf.within r.number (Slot.realizeOnce category slot)

/-- The registry as a source. -/
def asSource (name : String) (r : ShelvedRegistry) : Source Work :=
  ⟨name, r.registry.find r.realize⟩

end ShelvedRegistry

/-! ## The workbench -/

/-- A schema that is being worked on. -/
structure Workbench where
  definitions : List (Definition Work) := []
  descriptions : Descriptions := ∅
  diagnostics : List Diagnostic := []
  sources : Sources Work := ∅
  registries : SortedMap ShelvedRegistry := ∅
  shelf : Shelf := {}

namespace Workbench

/-- Does work on the shelf. -/
def work {α : Type} (b : Workbench) (w : Work α) : α × Workbench :=
  let (a, shelf) := w.run b.shelf
  (a, { b with shelf })

/-! ### Definitions -/

/-- Adds a definition. -/
def define (b : Workbench) (d : Definition Work) : Workbench :=
  { b with definitions := b.definitions ++ [d] }

/-- Adds what a document holds; its descriptions replace those under the same identifier. -/
def add (b : Workbench) (loaded : Loaded Work) : Workbench :=
  { b with
    definitions := b.definitions ++ loaded.definitions
    descriptions := b.descriptions.union loaded.descriptions }

/-- Sets a description. -/
def describe (b : Workbench) (identifier text : String) : Workbench :=
  { b with descriptions := b.descriptions.insert identifier text }

/-- Clears the schema; sources and registries stay. -/
def reset (b : Workbench) : Workbench :=
  { b with definitions := [], descriptions := ∅, diagnostics := [] }

/-- Writes the descriptions back to the definitions. -/
def describeDefinitions (b : Workbench) : Workbench :=
  { b with definitions := Definition.describeAll b.descriptions b.definitions }

/-- Links the triggers of the subscription type to the fields of the mutation type. -/
def link (b : Workbench) (mutation subscription : String) : Workbench :=
  { b with definitions := Definition.linkTriggers mutation subscription b.definitions }

/-! ### Rules -/

/-- Takes over what rules hand on. -/
def adopt (b : Workbench) (c : Checked Work) : Workbench :=
  { b with definitions := c.definitions, diagnostics := c.diagnostics }

/-- Runs one rule on the definitions and the findings so far. -/
def check (b : Workbench) (rule : Rule Work) : Workbench :=
  b.adopt (rule.check ⟨b.definitions, b.diagnostics⟩)

/-- Runs rules on the definitions, without findings at the start. -/
def runRules (b : Workbench) (rules : List (Rule Work)) : Workbench :=
  b.adopt (Rule.runAll rules b.definitions)

/-! ### Sources and registries -/

/-- Sets a source. -/
def addSource (b : Workbench) (source : Source Work) : Workbench :=
  { b with sources := b.sources.insert source.name source }

/-- Keeps a registry under a name. -/
def addRegistry (b : Workbench) (name : String) (r : Registry Work) : Workbench :=
  { b with
    registries := b.registries.insert name ⟨b.shelf.caches.length, r⟩
    shelf := { b.shelf with caches := b.shelf.caches ++ [{}] } }

/-- Assembles the definitions under the given rules, without changing them. -/
def assemble (b : Workbench) (schema : SchemaNames) (rules : List (Rule Work)) : Registry Work :=
  .assembleWith schema rules b.descriptions b.definitions

end Workbench

end SchemaRegistry
