import SchemaRegistry.Proofs.Assembly

/-!
# When a schema is valid

`Definition.WellFormed` is what an author has to observe, said about the definitions as they are given:
imports name types, nothing imports from itself in a circle, and identifiers and names are distinct. An
assembly under the built-in rules finds nothing if and only if all this is observed
(`isValid_assembleWith_iff_wellFormed`).

Each of the three groups of findings is empty for a reason of its own. Only the last one depends on the
others: it looks at the definitions that the rule on cycles has left, and these are all of them as soon
as there is no cycle (`Definition.survivors_eq_self`).
-/

namespace SchemaRegistry

variable {m : Type → Type}

namespace Definition

variable {ds : List (Definition m)}

/-- What is required of definitions. -/
structure WellFormed (ds : List (Definition m)) : Prop where
  /-- Every field import, also one of a directive, names a type. -/
  imports_exist : ∀ d ∈ ds, ∀ i ∈ d.fieldImports, ∃ t ∈ ds, t.isType = true ∧ t.identifier = i.target
  /-- No identifier reaches itself along one or more imports between types. -/
  acyclic : ∀ i, ¬ OnCycle ds i
  distinct_types : ((ds.filter (·.category = .type)).map (·.identifier)).Nodup
  distinct_names : ((ds.filter (·.category = .type)).map (·.name)).Nodup
  distinct_directives : ((ds.filter (·.category = .directive)).map (·.identifier)).Nodup

/-! ## What the rules find -/

theorem missingImports_eq_nil_iff {types : List String} {d : Definition m} :
    missingImports types d = [] ↔ ∀ i ∈ d.fieldImports, i.target ∈ types := by
  simp [missingImports, List.filter_eq_nil_iff]

theorem missingFindings_eq_nil_iff :
    missingFindings ds = [] ↔
      ∀ d ∈ ds, ∀ i ∈ d.fieldImports, ∃ t ∈ ds, t.isType = true ∧ t.identifier = i.target := by
  simp only [missingFindings, List.flatMap_eq_nil_iff, missingImports_eq_nil_iff, mem_typeIdentifiers,
    isTypeNamed_iff]

theorem circularFindings_eq_nil_iff : circularFindings ds = [] ↔ ∀ i, ¬ OnCycle ds i := by
  rw [circularFindings, List.map_eq_nil_iff, casualties_eq_nil_iff]

/-! ## Conflicts -/

theorem nodup_map_filter_iff {α β : Type} {p : α → Bool} {f : α → β} {xs : List α} :
    ((xs.filter p).map f).Nodup ↔
      xs.Pairwise fun x y => p x = true → p y = true → f x ≠ f y := by
  rw [List.Nodup, List.pairwise_map, List.pairwise_filter]

theorem not_clashes_iff {e d : Definition m} :
    ¬ e.Clashes d ↔
      (e.category = .type → d.category = .type → e.identifier ≠ d.identifier) ∧
      (e.category = .type → d.category = .type → e.name ≠ d.name) ∧
      (e.category = .directive → d.category = .directive → e.identifier ≠ d.identifier) := by
  rw [Clashes, isType_iff]
  cases e.category <;> cases d.category <;> simp

/-- Compatibility is distinctness, taken apart by what has to be distinct. -/
theorem compatible_iff :
    Compatible ds ↔
      ((ds.filter (·.category = .type)).map (·.identifier)).Nodup ∧
      ((ds.filter (·.category = .type)).map (·.name)).Nodup ∧
      ((ds.filter (·.category = .directive)).map (·.identifier)).Nodup := by
  rw [nodup_map_filter_iff, nodup_map_filter_iff, nodup_map_filter_iff, ← List.pairwise_and_iff,
    ← List.pairwise_and_iff, Compatible]
  simp only [decide_eq_true_eq, not_clashes_iff]

/-! ## All findings -/

/-- Nothing is found if and only if the definitions are well-formed. -/
theorem findings_eq_nil_iff :
    missingFindings ds ++ circularFindings ds ++ findingsFrom [] (survivors ds) = [] ↔
      WellFormed ds := by
  rw [List.append_eq_nil_iff, List.append_eq_nil_iff, missingFindings_eq_nil_iff,
    circularFindings_eq_nil_iff]
  constructor
  · rintro ⟨⟨hexist, hacyclic⟩, hconflicts⟩
    -- only without cycles does the registration see every definition
    rw [survivors_eq_self hacyclic, findingsFrom_eq_nil_iff List.Pairwise.nil, List.nil_append,
      compatible_iff] at hconflicts
    obtain ⟨htypes, hnames, hdirectives⟩ := hconflicts
    exact ⟨hexist, hacyclic, htypes, hnames, hdirectives⟩
  · rintro ⟨hexist, hacyclic, htypes, hnames, hdirectives⟩
    refine ⟨⟨hexist, hacyclic⟩, ?_⟩
    rw [survivors_eq_self hacyclic, findingsFrom_eq_nil_iff List.Pairwise.nil, List.nil_append,
      compatible_iff]
    exact ⟨htypes, hnames, hdirectives⟩

theorem WellFormed.compatible (h : WellFormed ds) : Compatible ds :=
  compatible_iff.2 ⟨h.distinct_types, h.distinct_names, h.distinct_directives⟩

end Definition

open Definition (WellFormed)

namespace Registry

theorem isValid_iff (r : Registry m) : r.isValid = true ↔ r.diagnostics = [] := List.isEmpty_iff

theorem wellFormed_of_isValid {schema : SchemaNames} {descriptions : Descriptions}
    {ds : List (Definition m)}
    (h : (assembleWith schema Rule.standard descriptions ds).isValid = true) : WellFormed ds := by
  rw [isValid_iff, diagnostics_assembleWith] at h
  exact Definition.findings_eq_nil_iff.1 h

end Registry

/-- Whatever the descriptions and the names of the root types are, the assembly under the built-in rules
has no findings, and counts as valid, if and only if the definitions are well-formed. -/
theorem isValid_assembleWith_iff_wellFormed (schema : SchemaNames) (descriptions : Descriptions)
    (ds : List (Definition m)) :
    let r := Registry.assembleWith schema Rule.standard descriptions ds
    (r.diagnostics = [] ↔ WellFormed ds) ∧ (r.isValid = true ↔ WellFormed ds) := by
  intro r
  have hfindings : r.diagnostics = [] ↔ WellFormed ds := by
    rw [Registry.diagnostics_assembleWith]
    exact Definition.findings_eq_nil_iff
  exact ⟨hfindings, r.isValid_iff.trans hfindings⟩

end SchemaRegistry
