import SchemaRegistry.Proofs.FieldImport

/-!
# The rule on cycles

`Rule.importsAcyclic` leaves out the circular definitions, with one finding each, and carries out the
imports of the others (`Rule.check_importsAcyclic`). Which definitions these are is said by the imports
between types alone: those of the types whose identifier lies on a cycle, that is, imports from itself or
belongs to a strongly connected component with other members (`importsAcyclic_drops_exactly_circular`).
-/

namespace SchemaRegistry

variable {m : Type → Type}

namespace Definition

/-- The definitions that take part in a cycle of imports. -/
def casualties (ds : List (Definition m)) : List (Definition m) :=
  ds.filter fun d => decide (Circular ds d)

/-- The finding on a definition that takes part in a cycle. -/
def circularFinding (d : Definition m) : Diagnostic :=
  ⟨.importsAcyclic, d.location, ⟨"Field import cycle", d.identifier⟩⟩

theorem decide_circular (ds : List (Definition m)) (d : Definition m) :
    decide (Circular ds d) =
      (d.isType && (ImportGraph.ofDefinitions ds).cyclic.contains d.identifier) := by
  rw [Bool.eq_iff_iff, decide_eq_true_eq, Bool.and_eq_true, List.contains_iff_mem,
    ImportGraph.mem_cyclic_ofDefinitions, Circular]

/-! ## Without cycles -/

section Acyclic

variable {ds : List (Definition m)}

/-- An identifier on a cycle is the one of a circular definition. -/
theorem exists_circular_of_onCycle {i : String} (h : OnCycle ds i) : ∃ d ∈ ds, Circular ds d := by
  obtain ⟨j, ⟨⟨d, hd, hname, -⟩, -⟩, -⟩ := Relation.TransGen.head'_iff.1 h
  obtain ⟨htype, rfl⟩ := isTypeNamed_iff.1 hname
  exact ⟨d, hd, htype, h⟩

theorem casualties_eq_nil_iff : casualties ds = [] ↔ ∀ i, ¬ OnCycle ds i := by
  rw [casualties, List.filter_eq_nil_iff]
  simp only [decide_eq_true_eq]
  constructor
  · intro h i hi
    obtain ⟨d, hd, hcircular⟩ := exists_circular_of_onCycle hi
    exact h d hd hcircular
  · rintro h d - ⟨-, hcycle⟩
    exact h d.identifier hcycle

/-- Without cycles no definition is left out. -/
theorem survivors_eq_self (h : ∀ i, ¬ OnCycle ds i) : survivors ds = ds := by
  refine List.filter_eq_self.2 ?_
  intro d _
  simp [Circular, h d.identifier]

end Acyclic

end Definition

open Relation (TransGen)
open Definition (Circular Imports OnCycle survivors casualties completeFields circularFinding)

/-! ## What the rule hands on -/

/-- What the rule hands on, said without its graph. -/
theorem Rule.check_importsAcyclic (c : Checked m) :
    Rule.importsAcyclic.check c =
      { definitions := (survivors c.definitions).map (importFields (completeFields c.definitions))
        diagnostics := c.diagnostics ++ (casualties c.definitions).map circularFinding } := by
  unfold completeFields survivors casualties
  simp only [Definition.decide_circular]
  rfl

/-- The rule drops a definition if and only if it is a type and its identifier lies on a cycle of imports.
The others keep their order and everything but their fields, also those that merely import from a
circular type and directives with the identifier of one. To the findings so far one is added for each
dropped definition, in the order of the definitions.

An identifier lies on a cycle if a type with it imports from itself, or if its strongly connected component
has other members. -/
theorem importsAcyclic_drops_exactly_circular (c : Checked m) :
    (Rule.importsAcyclic.check c).definitions.map (·.withFields []) =
        (c.definitions.filter fun d =>
          !decide (d.isType = true ∧ OnCycle c.definitions d.identifier)).map (·.withFields []) ∧
      (Rule.importsAcyclic.check c).diagnostics =
        c.diagnostics ++ (c.definitions.filter fun d =>
          decide (d.isType = true ∧ OnCycle c.definitions d.identifier)).map (fun d =>
            ⟨.importsAcyclic, d.location, ⟨"Field import cycle", d.identifier⟩⟩) ∧
      (∀ d ∈ c.definitions, d.isType = false ∨ ¬ OnCycle c.definitions d.identifier →
        ∃ kept ∈ (Rule.importsAcyclic.check c).definitions,
          kept.withFields [] = d.withFields []) ∧
      ∀ i, OnCycle c.definitions i ↔ Imports c.definitions i i ∨
        ∃ j, j ≠ i ∧ TransGen (Imports c.definitions) i j ∧ TransGen (Imports c.definitions) j i := by
  rw [Rule.check_importsAcyclic]
  refine ⟨?_, rfl, ?_, fun i => Definition.onCycle_iff_component⟩
  · rw [List.map_map]
    apply List.map_congr_left
    intro d _
    exact withFields_importFields _ d []
  · intro d hd hkept
    have hnot : ¬ Circular c.definitions d := by
      rintro ⟨htype, hcycle⟩
      rcases hkept with hdirective | hnone
      · simp [hdirective] at htype
      · exact hnone hcycle
    have hmem : d ∈ survivors c.definitions := Definition.mem_survivors.2 ⟨hd, hnot⟩
    exact ⟨_, List.mem_map_of_mem hmem, withFields_importFields _ d []⟩

end SchemaRegistry
