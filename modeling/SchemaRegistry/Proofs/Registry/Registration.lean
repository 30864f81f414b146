import Mathlib.Data.List.Nodup
import SchemaRegistry.Registry.Basic
import SchemaRegistry.Proofs.Registry.Index

/-!
# Registration

Registering definitions one after the other is followed with the list of the definitions that are
registered so far. A definition is accepted into this list if nothing in it stands in its way
(`Definition.conflictFindings`); otherwise what stands in its way is reported.

A registry holds such a list (`Registry.Holds`) if the index of each category is the one of the listed
definitions of that category. One step keeps this (`Holds.register`), so every registry holds what has
been accepted (`ofDefinitions_holds`), and its findings are those of the steps
(`diagnostics_ofDefinitions`).
-/

namespace SchemaRegistry

variable {m : Type → Type}

/-! ## What stands in the way -/

/-- How a taken identifier is described in a category. -/
def Category.identifierWord : Category → String
  | .type => "Type identifier"
  | .directive => "Directive identifier"

namespace Definition

/-- A registered definition `e` keeps `d` from being registered: they are of one category and have the
same identifier or, as types, the same name. -/
def Clashes (e d : Definition m) : Prop :=
  e.category = d.category ∧ (e.identifier = d.identifier ∨ d.isType = true ∧ e.name = d.name)

/-- Whether the identifier of `d` is taken by one of the registered definitions. -/
def identifierTaken (held : List (Definition m)) (d : Definition m) : Bool :=
  held.any fun e => decide (e.category = d.category) && e.identifier == d.identifier

/-- Whether `d` is a type and its name is taken by one of the registered definitions. -/
def nameTaken (held : List (Definition m)) (d : Definition m) : Bool :=
  d.isType && held.any fun e => decide (e.category = d.category) && e.name == d.name

/-- The findings against registering `d` beside the definitions that are registered already. -/
def conflictFindings (held : List (Definition m)) (d : Definition m) : List Diagnostic :=
  (if identifierTaken held d then
      [⟨.uniqueNames, d.location, ⟨d.category.identifierWord, d.identifier⟩⟩]
    else []) ++
    if nameTaken held d then [⟨.uniqueNames, d.location, ⟨"Type name", d.name⟩⟩] else []

/-- The registered definitions after the turn of `d`. -/
def accept (held : List (Definition m)) (d : Definition m) : List (Definition m) :=
  if (conflictFindings held d).isEmpty then held ++ [d] else held

/-- The findings of registering definitions one after the other. -/
def findingsFrom : List (Definition m) → List (Definition m) → List Diagnostic
  | _, [] => []
  | held, d :: rest => conflictFindings held d ++ findingsFrom (accept held d) rest

/-- The definitions that end up registered. -/
def accepted (ds : List (Definition m)) : List (Definition m) := ds.foldl accept []

theorem conflictFindings_eq_nil_iff {held : List (Definition m)} {d : Definition m} :
    conflictFindings held d = [] ↔ ∀ e ∈ held, ¬ e.Clashes d := by
  have hsplit : conflictFindings held d = [] ↔
      identifierTaken held d = false ∧ nameTaken held d = false := by
    unfold conflictFindings
    cases identifierTaken held d <;> cases nameTaken held d <;> simp
  rw [hsplit]
  constructor
  · rintro ⟨hidentifier, hname⟩ e he ⟨hcategory, hclash⟩
    rcases hclash with hclash | ⟨htype, hclash⟩
    · simp only [identifierTaken, List.any_eq_false] at hidentifier
      exact hidentifier e he (by simp [hcategory, hclash])
    · simp only [nameTaken, htype, Bool.true_and, List.any_eq_false] at hname
      exact hname e he (by simp [hcategory, hclash])
  · intro h
    constructor
    · simp only [identifierTaken, List.any_eq_false]
      intro e he htaken
      have htaken : e.category = d.category ∧ e.identifier = d.identifier := by simpa using htaken
      exact h e he ⟨htaken.1, .inl htaken.2⟩
    · cases htype : d.isType with
      | false => simp [nameTaken, htype]
      | true =>
        simp only [nameTaken, htype, Bool.true_and, List.any_eq_false]
        intro e he htaken
        have htaken : e.category = d.category ∧ e.name = d.name := by simpa using htaken
        exact h e he ⟨htaken.1, .inr ⟨htype, htaken.2⟩⟩

/-- Against a definition there is one finding or, if it is a type, up to two. -/
theorem length_conflictFindings {held : List (Definition m)} {d : Definition m}
    (h : conflictFindings held d ≠ []) :
    (conflictFindings held d).length = 1 ∨
      d.isType = true ∧ (conflictFindings held d).length = 2 := by
  unfold conflictFindings at h ⊢
  cases hname : nameTaken held d with
  | false =>
    cases hidentifier : identifierTaken held d with
    | false => simp [hname, hidentifier] at h
    | true => exact .inl rfl
  | true =>
    have htype : d.isType = true := by
      unfold nameTaken at hname
      exact (Bool.and_eq_true_iff.1 hname).1
    cases identifierTaken held d with
    | false => exact .inl rfl
    | true => exact .inr ⟨htype, rfl⟩

theorem of_mem_conflictFindings {held : List (Definition m)} {d : Definition m} {f : Diagnostic}
    (h : f ∈ conflictFindings held d) : f.rule = .uniqueNames ∧ f.location = d.location := by
  unfold conflictFindings at h
  rcases List.mem_append.1 h with h | h
  · split at h
    · rw [List.mem_singleton.1 h]
      exact ⟨rfl, rfl⟩
    · exact absurd h List.not_mem_nil
  · split at h
    · rw [List.mem_singleton.1 h]
      exact ⟨rfl, rfl⟩
    · exact absurd h List.not_mem_nil

theorem accept_of_eq_nil {held : List (Definition m)} {d : Definition m}
    (h : conflictFindings held d = []) : accept held d = held ++ [d] := by
  simp [accept, h]

theorem accept_of_ne_nil {held : List (Definition m)} {d : Definition m}
    (h : conflictFindings held d ≠ []) : accept held d = held := by
  simp [accept, h]

/-! ## Distinctness -/

/-- No later definition of the list clashes with an earlier one. -/
def Compatible (ds : List (Definition m)) : Prop := ds.Pairwise fun e d => ¬ e.Clashes d

theorem compatible_append_singleton {held : List (Definition m)} {d : Definition m} :
    Compatible (held ++ [d]) ↔ Compatible held ∧ conflictFindings held d = [] := by
  rw [conflictFindings_eq_nil_iff]
  simp [Compatible, List.pairwise_append]

theorem Compatible.accept {held : List (Definition m)} (h : Compatible held) (d : Definition m) :
    Compatible (accept held d) := by
  by_cases hnone : conflictFindings held d = []
  · rw [accept_of_eq_nil hnone]
    exact compatible_append_singleton.2 ⟨h, hnone⟩
  · rwa [accept_of_ne_nil hnone]

theorem Compatible.foldl_accept {held : List (Definition m)} (h : Compatible held)
    (ds : List (Definition m)) : Compatible (ds.foldl Definition.accept held) := by
  induction ds generalizing held with
  | nil => exact h
  | cons d ds ih => exact ih (h.accept d)

theorem compatible_accepted (ds : List (Definition m)) : Compatible (accepted ds) :=
  Compatible.foldl_accept List.Pairwise.nil ds

/-- Compatible definitions of one category have distinct identifiers. -/
theorem Compatible.nodup_identifiers {ds : List (Definition m)} (h : Compatible ds)
    (category : Category) :
    ((ds.filter (·.category = category)).map (·.identifier)).Nodup := by
  rw [List.Nodup, List.pairwise_map, List.pairwise_filter]
  refine h.imp ?_
  intro e d hclash he hd heq
  have he : e.category = category := by simpa using he
  have hd : d.category = category := by simpa using hd
  exact hclash ⟨he.trans hd.symm, .inl heq⟩

/-- Compatible types have distinct names as well. -/
theorem Compatible.nodup_names {ds : List (Definition m)} (h : Compatible ds) :
    ((ds.filter (·.category = .type)).map (·.name)).Nodup := by
  rw [List.Nodup, List.pairwise_map, List.pairwise_filter]
  refine h.imp ?_
  intro e d hclash he hd heq
  have he : e.category = .type := by simpa using he
  have hd : d.category = .type := by simpa using hd
  have htype : d.isType = true := isType_iff.2 hd
  exact hclash ⟨he.trans hd.symm, .inr ⟨htype, heq⟩⟩

/-- Among compatible definitions of a category, an identifier leads to the definition it is from. -/
theorem Compatible.find?_of_mem {ds : List (Definition m)} (h : Compatible ds) {d : Definition m}
    (hd : d ∈ ds) :
    (ds.filter (·.category = d.category)).find? (·.identifier == d.identifier) = some d := by
  have hmem : d ∈ ds.filter (·.category = d.category) := by simp [hd]
  exact (find?_key_eq_some_iff (h.nodup_identifiers d.category)).2 ⟨hmem, rfl⟩

/-- Beside what is registered, nothing is found against definitions if and only if all of them together
are compatible. -/
theorem findingsFrom_eq_nil_iff {held ds : List (Definition m)} (hheld : Compatible held) :
    findingsFrom held ds = [] ↔ Compatible (held ++ ds) := by
  induction ds generalizing held with
  | nil => simp [findingsFrom, hheld]
  | cons d ds ih =>
    have hassoc : held ++ d :: ds = held ++ [d] ++ ds := by simp
    rw [findingsFrom, List.append_eq_nil_iff, hassoc]
    constructor
    · -- the first definition is accepted, so the others are held against it as well
      rintro ⟨hnone, hrest⟩
      rw [accept_of_eq_nil hnone] at hrest
      exact (ih (compatible_append_singleton.2 ⟨hheld, hnone⟩)).1 hrest
    · intro hall
      have hfirst : Compatible (held ++ [d]) := (List.pairwise_append.1 hall).1
      have hnone := (compatible_append_singleton.1 hfirst).2
      rw [accept_of_eq_nil hnone]
      exact ⟨hnone, (ih hfirst).2 hall⟩

/-- Compatible definitions are all accepted. -/
theorem foldl_accept_of_compatible {held ds : List (Definition m)} (h : Compatible (held ++ ds)) :
    ds.foldl accept held = held ++ ds := by
  induction ds generalizing held with
  | nil => simp
  | cons d ds ih =>
    have hassoc : held ++ d :: ds = held ++ [d] ++ ds := by simp
    rw [hassoc] at h ⊢
    have hnone := (compatible_append_singleton.1 (List.pairwise_append.1 h).1).2
    rw [List.foldl_cons, accept_of_eq_nil hnone]
    exact ih h

theorem accepted_of_compatible {ds : List (Definition m)} (h : Compatible ds) : accepted ds = ds := by
  have hnone : Compatible ([] ++ ds) := h
  exact foldl_accept_of_compatible hnone

end Definition

open Definition (conflictFindings accept findingsFrom accepted)

/-! ## The conflicts of an index -/

/-- What an index has against a definition can be said by the definitions it was made of. -/
theorem Index.conflicts_ofRegistered (held : List (Definition m)) (d : Definition m) :
    (ofRegistered (held.filter (·.category = d.category))).conflicts d = conflictFindings held d := by
  have hidentifier : (ofRegistered (held.filter (·.category = d.category))).names.contains
      d.identifier = Definition.identifierTaken held d := by
    rw [contains_names_ofRegistered, List.any_filter]
    rfl
  have hname : (ofRegistered (held.filter (·.category = d.category))).aliases.contains d.name =
      held.any fun e => decide (e.category = d.category) && e.name == d.name := by
    rw [contains_aliases_ofRegistered, List.any_filter]
  unfold Index.conflicts conflictFindings Definition.nameTaken
  rw [← hname, ← hidentifier]
  cases hcategory : d.category with
  | type =>
    have htype : d.isType = true := Definition.isType_iff.2 hcategory
    rw [htype]
    rfl
  | directive =>
    have htype : d.isType = false := by simp [← Bool.not_eq_true, Definition.isType_iff, hcategory]
    simp only [htype, Bool.false_and, Bool.false_eq_true, if_false, List.append_nil]
    rfl

namespace Registry

/-! ## One step -/

theorem index_withIndex (r : Registry m) (category c : Category) (index : Index m) :
    (r.withIndex category index).index c = if c = category then index else r.index c := by
  cases category <;> cases c <;> rfl

theorem diagnostics_withIndex (r : Registry m) (category : Category) (index : Index m) :
    (r.withIndex category index).diagnostics = r.diagnostics := by
  cases category <;> rfl

theorem diagnostics_register (builtinSource : String) (r : Registry m) (d : Definition m) :
    (register builtinSource r d).diagnostics =
      r.diagnostics ++ (r.index d.category).conflicts d := by
  unfold register
  dsimp only
  split
  · rw [diagnostics_withIndex]
  · rfl

theorem index_register (builtinSource : String) (r : Registry m) (d : Definition m) (c : Category) :
    (register builtinSource r d).index c =
      if ((r.index d.category).conflicts d).isEmpty = true ∧ c = d.category then
        (r.index d.category).insert d
      else r.index c := by
  unfold register
  dsimp only
  split
  · rename_i hempty
    rw [index_withIndex]
    simp only [hempty, true_and]
    split
    · rfl
    · cases c <;> rfl
  · rename_i hconflict
    rw [if_neg fun h => hconflict h.1]
    cases c <;> rfl

/-- The index of each category is the one of the listed definitions of that category. -/
def Holds (r : Registry m) (held : List (Definition m)) : Prop :=
  ∀ c, r.index c = .ofRegistered (held.filter (·.category = c))

theorem Holds.conflicts {r : Registry m} {held : List (Definition m)} (h : r.Holds held)
    (d : Definition m) : (r.index d.category).conflicts d = conflictFindings held d := by
  rw [h d.category, Index.conflicts_ofRegistered]

/-- One registration keeps the list in step. -/
theorem Holds.register {r : Registry m} {held : List (Definition m)} (h : r.Holds held)
    (builtinSource : String) (d : Definition m) :
    (register builtinSource r d).Holds (accept held d) := by
  intro c
  rw [index_register, h.conflicts d]
  by_cases hnone : conflictFindings held d = []
  · rw [Definition.accept_of_eq_nil hnone, List.filter_append]
    by_cases hc : c = d.category
    · subst hc
      simp [hnone, h d.category]
    · have hd : ¬ d.category = c := Ne.symm hc
      simp [hnone, hc, hd, h c]
  · rw [Definition.accept_of_ne_nil hnone]
    simp [hnone, h c]

/-! ## A whole run -/

theorem Holds.foldl_register {r : Registry m} {held : List (Definition m)} (h : r.Holds held)
    (builtinSource : String) (ds : List (Definition m)) :
    (ds.foldl (Registry.register builtinSource) r).Holds (ds.foldl accept held) ∧
      (ds.foldl (Registry.register builtinSource) r).diagnostics =
        r.diagnostics ++ findingsFrom held ds := by
  induction ds generalizing r held with
  | nil => simp [findingsFrom, h]
  | cons d ds ih =>
    obtain ⟨hholds, hdiagnostics⟩ := ih (h.register builtinSource d)
    refine ⟨hholds, ?_⟩
    rw [List.foldl_cons, hdiagnostics, diagnostics_register, h.conflicts d, findingsFrom,
      List.append_assoc]

theorem holds_nil (diagnostics : List Diagnostic) :
    ({ diagnostics } : Registry m).Holds [] := by
  intro c
  cases c <;> rfl

/-- A registry holds exactly the accepted definitions. -/
theorem ofDefinitions_holds (builtinSource : String) (ds : List (Definition m))
    (diagnostics : List Diagnostic) :
    (ofDefinitions builtinSource ds diagnostics).Holds (accepted ds) :=
  ((holds_nil diagnostics).foldl_register builtinSource ds).1

theorem diagnostics_ofDefinitions (builtinSource : String) (ds : List (Definition m))
    (diagnostics : List Diagnostic) :
    (ofDefinitions builtinSource ds diagnostics).diagnostics =
      diagnostics ++ findingsFrom [] ds :=
  ((holds_nil diagnostics).foldl_register builtinSource ds).2

/-! ## Slots -/

/-- Under the identifier of a registered definition stands the slot made of it. -/
theorem Holds.find?_of_mem {r : Registry m} {held : List (Definition m)} (h : r.Holds held)
    (hcompatible : Definition.Compatible held) {d : Definition m} (hd : d ∈ held) :
    (r.index d.category).find? d.identifier = some (Slot.ofDefinition d) := by
  rw [h d.category, Index.find?_ofRegistered (hcompatible.nodup_identifiers d.category),
    hcompatible.find?_of_mem hd, Option.map_some]

theorem Holds.slots {r : Registry m} {held : List (Definition m)} (h : r.Holds held)
    (category : Category) :
    (r.index category).slots =
      (held.filter (·.category = category)).map Slot.ofDefinition := by
  rw [h category, Index.slots_ofRegistered]

/-- There are as many registered identifiers in both categories as registered definitions. -/
theorem Holds.size_names {r : Registry m} {held : List (Definition m)} (h : r.Holds held)
    (hcompatible : Definition.Compatible held) :
    r.types.names.size + r.directives.names.size = held.length := by
  have hsize : ∀ c, (r.index c).names.size = (held.filter (·.category = c)).length := by
    intro c
    rw [h c]
    exact Index.size_names_ofRegistered (hcompatible.nodup_identifiers c)
  have hdirectives : held.filter (·.category = .directive) =
      held.filter fun d => !decide (d.category = .type) := by
    apply List.filter_congr
    intro d _
    cases d.category <;> rfl
  have htypes := hsize .type
  have hothers := hsize .directive
  rw [hdirectives] at hothers
  rw [List.length_eq_length_filter_add fun d => decide (d.category = .type), ← htypes, ← hothers]
  rfl

end Registry

end SchemaRegistry
