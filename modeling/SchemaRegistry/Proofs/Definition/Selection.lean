import SchemaRegistry.Proofs.Assembly

/-!
# The definitions of one category

Every pass of an assembly goes through types and directives together. Still each of them commutes with
picking out the definitions of a category: what it makes of the types is what it makes of the types
alone, and the same with directives. Linking looks at types only, the import graph is one of types, and a
definition is only ever refused because of another one of its category.

So the definitions that reach the registration can be picked out before or after the passes
(`finished_filter_category`), and the accepted ones before or after the registration
(`accepted_filter_category`).
-/

namespace SchemaRegistry.Definition

variable {m : Type → Type}

/-- A change that keeps categories may come before or after the selection. -/
theorem filter_category_map {f : Definition m → Definition m} (hf : ∀ d, (f d).category = d.category)
    (category : Category) (ds : List (Definition m)) :
    (ds.map f).filter (·.category = category) = (ds.filter (·.category = category)).map f := by
  rw [List.filter_map]
  congr 2
  funext d
  exact congrArg (fun c => decide (c = category)) (hf d)

theorem isType_of_mem_filter {ds : List (Definition m)} {d : Definition m} {category : Category}
    (h : d ∈ ds.filter (·.category = category)) : d.isType = true ↔ category = .type := by
  have hcategory : d.category = category := by simpa using (List.mem_filter.1 h).2
  rw [isType_iff, hcategory]

/-! ## Before the rules -/

theorem describeAll_filter_category (descriptions : Descriptions) (category : Category)
    (ds : List (Definition m)) :
    (describeAll descriptions ds).filter (·.category = category) =
      describeAll descriptions (ds.filter (·.category = category)) :=
  filter_category_map (fun d => category_of_heading_eq (heading_describe descriptions d)) category ds

/-- Only types are looked at when a root type is searched for. -/
theorem soleType?_filter_types (ds : List (Definition m)) (identifier : String) :
    soleType? (ds.filter (·.category = .type)) identifier = soleType? ds identifier := by
  have hsame : (ds.filter (·.category = .type)).filter (isTypeNamed identifier) =
      ds.filter (isTypeNamed identifier) := by
    rw [List.filter_filter]
    apply List.filter_congr
    intro d _
    rw [Bool.eq_iff_iff, Bool.and_eq_true, isTypeNamed_iff, isType_iff, decide_eq_true_eq]
    exact ⟨fun h => h.1, fun h => ⟨h, h.1⟩⟩
  unfold soleType?
  rw [hsame]

theorem soleType?_filter_directives (ds : List (Definition m)) (identifier : String) :
    soleType? (ds.filter (·.category = .directive)) identifier = none := by
  have hnone : (ds.filter (·.category = .directive)).filter (isTypeNamed identifier) = [] := by
    refine List.filter_eq_nil_iff.2 ?_
    intro d hd hname
    have htype := (isType_of_mem_filter hd).1 (isTypeNamed_iff.1 hname).1
    cases htype
  unfold soleType?
  rw [hnone]

theorem link_of_directive {mutation : String} {s d : Definition m} (h : d.category = .directive) :
    link mutation s d = d := by
  have hname : ¬ d.isTypeNamed mutation = true := by
    rw [isTypeNamed_iff, isType_iff, h]
    rintro ⟨hother, -⟩
    cases hother
  rw [link, if_neg hname]

theorem linkTriggers_filter_category (mutation subscription : String) (category : Category)
    (ds : List (Definition m)) :
    (linkTriggers mutation subscription ds).filter (·.category = category) =
      linkTriggers mutation subscription (ds.filter (·.category = category)) := by
  cases category with
  | type =>
    -- the same root types are found, so the same change is made
    unfold linkTriggers
    rw [soleType?_filter_types, soleType?_filter_types]
    split
    · rename_i s _ _
      exact filter_category_map (fun d => category_of_heading_eq (heading_link mutation s d)) .type ds
    · rfl
  | directive =>
    have hright : linkTriggers mutation subscription (ds.filter (·.category = .directive)) =
        ds.filter (·.category = .directive) := by
      unfold linkTriggers
      rw [soleType?_filter_directives]
    rw [hright]
    rcases linkTriggers_cases mutation subscription ds with ⟨heq, -⟩ | ⟨s, -, -, heq⟩
    · rw [heq]
    · have hkept : (ds.filter (·.category = .directive)).map (link mutation s) =
          (ds.filter (·.category = .directive)).map id := by
        apply List.map_congr_left
        intro d hd
        exact link_of_directive (by simpa using (List.mem_filter.1 hd).2)
      rw [heq, filter_category_map fun d => category_of_heading_eq (heading_link mutation s d), hkept,
        List.map_id]

theorem prepare_filter_category (schema : SchemaNames) (descriptions : Descriptions)
    (category : Category) (ds : List (Definition m)) :
    (prepare schema descriptions ds).filter (·.category = category) =
      prepare schema descriptions (ds.filter (·.category = category)) := by
  unfold prepare
  rw [linkTriggers_filter_category, describeAll_filter_category]

/-! ## Imports and cycles -/

theorem imports_filter_types (ds : List (Definition m)) :
    Imports (ds.filter (·.category = .type)) = Imports ds := by
  have hnamed : ∀ (identifier : String) (d : Definition m), d.isTypeNamed identifier = true →
      (d ∈ ds.filter (·.category = .type) ↔ d ∈ ds) := by
    intro identifier d hname
    have hcategory : d.category = .type := isType_iff.1 (isTypeNamed_iff.1 hname).1
    simp [List.mem_filter, hcategory]
  funext i j
  unfold Imports
  apply propext
  constructor
  · rintro ⟨⟨d, hd, hi, himport⟩, t, ht, hj⟩
    exact ⟨⟨d, (hnamed i d hi).1 hd, hi, himport⟩, t, (hnamed j t hj).1 ht, hj⟩
  · rintro ⟨⟨d, hd, hi, himport⟩, t, ht, hj⟩
    exact ⟨⟨d, (hnamed i d hi).2 hd, hi, himport⟩, t, (hnamed j t hj).2 ht, hj⟩

theorem onCycle_filter_types (ds : List (Definition m)) :
    OnCycle (ds.filter (·.category = .type)) = OnCycle ds := by
  funext i
  rw [OnCycle, imports_filter_types, OnCycle]

theorem survivors_filter_category (category : Category) (ds : List (Definition m)) :
    (survivors ds).filter (·.category = category) =
      survivors (ds.filter (·.category = category)) := by
  -- what is circular is a type, and the cycle it lies on is one of types
  have hcircular : ∀ d ∈ ds.filter (·.category = category),
      (Circular ds d ↔ Circular (ds.filter (·.category = category)) d) := by
    intro d hd
    unfold Circular
    rw [isType_of_mem_filter hd]
    constructor
    · rintro ⟨rfl, hcycle⟩
      exact ⟨rfl, by rwa [onCycle_filter_types]⟩
    · rintro ⟨rfl, hcycle⟩
      exact ⟨rfl, by rwa [onCycle_filter_types] at hcycle⟩
  unfold survivors
  rw [List.filter_comm]
  apply List.filter_congr
  intro d hd
  rw [decide_eq_decide.2 (hcircular d hd)]

/-- Directives have no part in the complete fields. -/
theorem completeFields_filter_types (ds : List (Definition m)) :
    completeFields (ds.filter (·.category = .type)) = completeFields ds := by
  -- the table of `ds` solves the equation of its types
  symm
  apply eq_completeFields
  intro u
  rw [get?_completeFields, ← survivors_filter_category, find?_isTypeNamed, find?_isTypeNamed,
    List.filter_filter]
  simp only [Bool.and_self]

theorem importFields_of_directive {d : Definition m} (h : d.category = .directive)
    (table : SortedMap (List Field)) : importFields table d = d := by
  have htype : d.isType = false := by
    rw [← Bool.not_eq_true, isType_iff, h]
    intro hother
    cases hother
  exact importFields_of_unaffected (.inl htype) table

/-! ## What reaches the registration -/

theorem finished_filter_category (schema : SchemaNames) (descriptions : Descriptions)
    (category : Category) (ds : List (Definition m)) :
    (finished schema descriptions ds).filter (·.category = category) =
      finished schema descriptions (ds.filter (·.category = category)) := by
  unfold finished
  rw [filter_category_map fun d => category_of_heading_eq (heading_importFields _ d),
    survivors_filter_category, prepare_filter_category]
  cases category with
  | type => rw [← prepare_filter_category, completeFields_filter_types]
  | directive =>
    -- whatever the tables are, nothing is imported with them
    apply List.map_congr_left
    intro d hd
    have hprepared := (mem_survivors.1 hd).1
    rw [← prepare_filter_category] at hprepared
    have hcategory : d.category = .directive := by simpa using (List.mem_filter.1 hprepared).2
    rw [importFields_of_directive hcategory, importFields_of_directive hcategory]

/-! ## Registration -/

/-- What stands against a definition is of its own category. -/
theorem conflictFindings_filter_category (held : List (Definition m)) (d : Definition m) :
    conflictFindings (held.filter (·.category = d.category)) d = conflictFindings held d := by
  have hidentifier : identifierTaken (held.filter (·.category = d.category)) d =
      identifierTaken held d := by
    unfold identifierTaken
    rw [List.any_filter]
    simp only [← Bool.and_assoc, Bool.and_self]
  have hname : nameTaken (held.filter (·.category = d.category)) d = nameTaken held d := by
    unfold nameTaken
    rw [List.any_filter]
    simp only [← Bool.and_assoc, Bool.and_self]
  unfold conflictFindings
  rw [hidentifier, hname]

/-- The turn of a definition concerns its own category only. -/
theorem accept_filter_category (category : Category) (held : List (Definition m))
    (d : Definition m) :
    (accept held d).filter (·.category = category) =
      if d.category = category then accept (held.filter (·.category = category)) d
      else held.filter (·.category = category) := by
  split
  · rename_i hcategory
    subst hcategory
    unfold accept
    rw [conflictFindings_filter_category]
    split
    · rw [List.filter_append, List.filter_cons_of_pos (by simp), List.filter_nil]
    · rfl
  · rename_i hother
    unfold accept
    split
    · rw [List.filter_append, List.filter_cons_of_neg (by simpa using hother), List.filter_nil,
        List.append_nil]
    · rfl

theorem foldl_accept_filter_category (category : Category) (held ds : List (Definition m)) :
    (ds.foldl accept held).filter (·.category = category) =
      (ds.filter (·.category = category)).foldl accept (held.filter (·.category = category)) := by
  induction ds generalizing held with
  | nil => rfl
  | cons d ds ih =>
    rw [List.foldl_cons, ih, accept_filter_category]
    split
    · rename_i hcategory
      rw [List.filter_cons_of_pos (by simpa using hcategory), List.foldl_cons]
    · -- the turn of another category leaves the accepted ones of this category as they were
      rename_i hother
      rw [List.filter_cons_of_neg (by simpa using hother)]

theorem accepted_filter_category (category : Category) (ds : List (Definition m)) :
    (accepted ds).filter (·.category = category) =
      accepted (ds.filter (·.category = category)) :=
  foldl_accept_filter_category category [] ds

end SchemaRegistry.Definition
