import SchemaRegistry.Proofs.Validity

/-!
# Rearranged definitions

What becomes of a definition before the registration does not depend on where it stands in the list. The
imports between types, and with them the cycles, are a matter of which definitions there are; and so are
the root types that are linked. The complete fields are not, because of several types with one
identifier the first one counts, but they are as soon as nothing collides: then the table of one
arrangement solves the equation of the other (`completeFields_perm`), which has one solution only.

So rearranged definitions reach the registration as they would have without, rearranged
(`finished_perm`).
-/

namespace SchemaRegistry.Definition

variable {m : Type → Type} {ds ds' : List (Definition m)}

/-! ## Imports and cycles -/

theorem imports_perm (h : ds.Perm ds') : Imports ds = Imports ds' := by
  funext i j
  simp only [Imports, h.mem_iff]

theorem onCycle_perm (h : ds.Perm ds') : OnCycle ds = OnCycle ds' := by
  funext i
  rw [OnCycle, imports_perm h, OnCycle]

theorem circular_perm (h : ds.Perm ds') (d : Definition m) : Circular ds d ↔ Circular ds' d := by
  rw [Circular, onCycle_perm h, Circular]

theorem survivors_perm (h : ds.Perm ds') : (survivors ds).Perm (survivors ds') := by
  -- each list is filtered by its own cycles, but these are the same
  have hsame : survivors ds' = ds'.filter fun d => !decide (Circular ds d) := by
    refine List.filter_congr ?_
    intro d _
    rw [decide_eq_decide.2 (circular_perm h d)]
  rw [hsame]
  exact h.filter _

theorem casualties_perm (h : ds.Perm ds') : (casualties ds).Perm (casualties ds') := by
  have hsame : casualties ds' = ds'.filter fun d => decide (Circular ds d) := by
    refine List.filter_congr ?_
    intro d _
    exact decide_eq_decide.2 (circular_perm h d).symm
  rw [hsame]
  exact h.filter _

/-! ## Findings of the rules -/

theorem missingFindings_perm (h : ds.Perm ds') :
    (missingFindings ds).Perm (missingFindings ds') := by
  have hidentifiers : (typeIdentifiers ds).Perm (typeIdentifiers ds') := (h.filter _).map _
  have hsame : missingImports (m := m) (typeIdentifiers ds) = missingImports (typeIdentifiers ds') := by
    funext d
    simp only [missingImports, hidentifiers.contains_eq]
  rw [missingFindings, hsame]
  exact h.flatMap_right _

theorem circularFindings_perm (h : ds.Perm ds') :
    (circularFindings ds).Perm (circularFindings ds') :=
  (casualties_perm h).map circularFinding

/-! ## Before the rules -/

/-- A type is the only one with its identifier wherever it stands. -/
theorem soleType?_perm (h : ds.Perm ds') (identifier : String) :
    soleType? ds identifier = soleType? ds' identifier := by
  have hfilter : (ds.filter (isTypeNamed identifier)).Perm (ds'.filter (isTypeNamed identifier)) :=
    h.filter _
  -- the only element of a list is the only element of any rearrangement
  apply Option.ext
  intro d
  rw [soleType?_eq_some_iff, soleType?_eq_some_iff]
  constructor
  · intro hsole
    rw [hsole] at hfilter
    exact (List.singleton_perm.1 hfilter).symm
  · intro hsole
    rw [hsole] at hfilter
    exact List.perm_singleton.1 hfilter

theorem linkTriggers_perm (h : ds.Perm ds') (mutation subscription : String) :
    (linkTriggers mutation subscription ds).Perm (linkTriggers mutation subscription ds') := by
  unfold linkTriggers
  rw [soleType?_perm h mutation, soleType?_perm h subscription]
  split
  · exact h.map _
  · exact h

theorem prepare_perm (h : ds.Perm ds') (schema : SchemaNames) (descriptions : Descriptions) :
    (prepare schema descriptions ds).Perm (prepare schema descriptions ds') := by
  rw [prepare_eq, prepare_eq]
  exact (linkTriggers_perm h schema.mutation schema.subscription).map _

/-! ## Complete fields -/

/-- Among compatible definitions the type with an identifier is found wherever it stands. -/
theorem Compatible.find?_isTypeNamed_perm (hcompatible : Compatible ds) (h : ds.Perm ds')
    (identifier : String) :
    ds.find? (isTypeNamed identifier) = ds'.find? (isTypeNamed identifier) := by
  rw [find?_isTypeNamed, find?_isTypeNamed]
  exact find?_key_perm (hcompatible.nodup_identifiers .type) (h.filter _) identifier

/-- The order in which types are declared has no part in their complete fields. -/
theorem completeFields_perm (hcompatible : Compatible ds) (h : ds.Perm ds') :
    completeFields ds = completeFields ds' := by
  -- the table of `ds` solves the equation of `ds'`, for an identifier leads to the same type in both
  apply eq_completeFields
  intro u
  rw [get?_completeFields, hcompatible.survivors.find?_isTypeNamed_perm (survivors_perm h)]

/-! ## What reaches the registration -/

theorem Compatible.perm (hcompatible : Compatible ds) (h : ds.Perm ds') : Compatible ds' := by
  have hkeys : ∀ (category : Category) (f : Definition m → String),
      ((ds.filter (·.category = category)).map f).Nodup →
        ((ds'.filter (·.category = category)).map f).Nodup := by
    intro category f hnodup
    exact ((h.filter _).map f).nodup_iff.1 hnodup
  obtain ⟨htypes, hnames, hdirectives⟩ := compatible_iff.1 hcompatible
  exact compatible_iff.2 ⟨hkeys _ _ htypes, hkeys _ _ hnames, hkeys _ _ hdirectives⟩

theorem finished_perm (hcompatible : Compatible ds) (h : ds.Perm ds') (schema : SchemaNames)
    (descriptions : Descriptions) :
    (finished schema descriptions ds).Perm (finished schema descriptions ds') := by
  have hprepared := prepare_perm h schema descriptions
  have hfields : completeFields (prepare schema descriptions ds) =
      completeFields (prepare schema descriptions ds') :=
    completeFields_perm (hcompatible.of_headings (prepare_headings schema descriptions ds)) hprepared
  unfold Definition.finished
  rw [hfields]
  exact (survivors_perm hprepared).map _

end SchemaRegistry.Definition
