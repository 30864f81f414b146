import Mathlib.Data.List.Forall2
import SchemaRegistry.Proofs.Assembly

/-!
# Every definition is accounted for

A definition has one of three fates: the rule on cycles leaves it out, the registration refuses it, or it
is registered. `Definition.fates` decides this for each definition of a list, by its position. What an
assembly under the built-in rules returns can be read off the fates
(`assembly_accounts_for_every_definition`): the findings of the two kinds, the slots of each category in
their order, and the number of everything.

The fates are found by going through the list with the definitions that are registered so far. So each
fact about them is an induction along `Definition.fatesFrom`, with one case for each fate.
-/

namespace SchemaRegistry

variable {m : Type → Type}

/-! ## Fates -/

/-- What becomes of a definition. -/
inductive Fate (m : Type → Type) where
  /-- It is left out because it takes part in a cycle. -/
  | circular (d : Definition m)
  /-- It conflicts with registered definitions, with these findings. -/
  | refused (d : Definition m) (findings : List Diagnostic)
  /-- It gets a slot. -/
  | registered (d : Definition m)

namespace Fate

open Definition (Circular circularFinding)

/-- The definition whose fate it is. -/
def definition : Fate m → Definition m
  | .circular d => d
  | .refused d _ => d
  | .registered d => d

/-- The definition if it is registered. -/
def registered? : Fate m → Option (Definition m)
  | .registered d => some d
  | _ => none

/-- Whether the definition is refused. -/
def isRefused : Fate m → Bool
  | .refused _ _ => true
  | _ => false

/-- What a fate contributes to the findings of a rule. -/
def findings : RuleKind → Fate m → List Diagnostic
  | .importsAcyclic, .circular d => [circularFinding d]
  | .uniqueNames, .refused _ findings => findings
  | _, _ => []

/-- The registered definitions among those whose fates are given. -/
def allRegistered (fates : List (Fate m)) : List (Definition m) := fates.filterMap registered?

/-- The fate is the right one for a definition that has its turn after `held` were registered: circular
definitions are left out, of the others those that clash with a registered one are refused, which is
reported at their place by one finding or, for types, by up to two. -/
def Justified (ds : List (Definition m)) (held : List (Definition m)) : Fate m → Prop
  | .circular d => Circular ds d
  | .refused d findings =>
    ¬ Circular ds d ∧ (∃ e ∈ held, e.Clashes d) ∧
      (findings.length = 1 ∨ d.isType = true ∧ findings.length = 2) ∧
      ∀ f ∈ findings, f.rule = .uniqueNames ∧ f.location = d.location
  | .registered d => ¬ Circular ds d ∧ ∀ e ∈ held, ¬ e.Clashes d

@[simp] theorem allRegistered_nil : allRegistered ([] : List (Fate m)) = [] := rfl

@[simp] theorem allRegistered_cons_circular (d : Definition m) (fates : List (Fate m)) :
    allRegistered (.circular d :: fates) = allRegistered fates := rfl

@[simp] theorem allRegistered_cons_refused (d : Definition m) (found : List Diagnostic)
    (fates : List (Fate m)) : allRegistered (.refused d found :: fates) = allRegistered fates := rfl

@[simp] theorem allRegistered_cons_registered (d : Definition m) (fates : List (Fate m)) :
    allRegistered (.registered d :: fates) = d :: allRegistered fates := rfl

theorem length_eq_add (fates : List (Fate m)) :
    fates.length = (allRegistered fates).length +
      (fates.flatMap (findings .importsAcyclic)).length + (fates.filter isRefused).length := by
  induction fates with
  | nil => rfl
  | cons fate fates ih =>
    rw [List.length_cons, ih, List.flatMap_cons, List.length_append]
    cases fate with
    | circular d =>
      have hfound : (findings .importsAcyclic (circular d)).length = 1 := rfl
      have hrefused : (circular d :: fates).filter isRefused = fates.filter isRefused := rfl
      rw [allRegistered_cons_circular, hfound, hrefused]
      omega
    | refused d found =>
      have hfound : (findings .importsAcyclic (refused d found)).length = 0 := rfl
      have hrefused : (refused d found :: fates).filter isRefused =
          refused d found :: fates.filter isRefused := rfl
      rw [allRegistered_cons_refused, hfound, hrefused, List.length_cons]
      omega
    | registered d =>
      have hfound : (findings .importsAcyclic (registered d)).length = 0 := rfl
      have hrefused : (registered d :: fates).filter isRefused = fates.filter isRefused := rfl
      rw [allRegistered_cons_registered, hfound, hrefused, List.length_cons]
      omega

end Fate

namespace Definition

variable {all held ds : List (Definition m)}

/-- The fates of definitions that have their turn after those of `held` were registered; `all` are all
definitions. -/
def fatesFrom (all : List (Definition m)) : List (Definition m) → List (Definition m) → List (Fate m)
  | _, [] => []
  | held, d :: rest =>
    if Circular all d then .circular d :: fatesFrom all held rest
    else if conflictFindings held d = [] then .registered d :: fatesFrom all (held ++ [d]) rest
    else .refused d (conflictFindings held d) :: fatesFrom all held rest

/-- The fates of definitions, position by position. -/
def fates (ds : List (Definition m)) : List (Fate m) := fatesFrom ds [] ds

theorem definitions_fatesFrom (all held ds : List (Definition m)) :
    (fatesFrom all held ds).map Fate.definition = ds := by
  fun_induction fatesFrom all held ds with
  | case1 => rfl
  | case2 held d rest hcircular ih => rw [List.map_cons, ih]; rfl
  | case3 held d rest hcircular hnone ih => rw [List.map_cons, ih]; rfl
  | case4 held d rest hcircular hconflict ih => rw [List.map_cons, ih]; rfl

/-- The definitions that get a slot are those the registration accepts. -/
theorem allRegistered_fatesFrom (all held ds : List (Definition m)) :
    held ++ Fate.allRegistered (fatesFrom all held ds) =
      (ds.filter fun d => !decide (Circular all d)).foldl accept held := by
  fun_induction fatesFrom all held ds with
  | case1 held => simp
  | case2 held d rest hcircular ih =>
    rw [Fate.allRegistered_cons_circular, ih, List.filter_cons_of_neg (by simp [hcircular])]
  | case3 held d rest hcircular hnone ih =>
    rw [Fate.allRegistered_cons_registered, List.filter_cons_of_pos (by simp [hcircular]),
      List.foldl_cons, accept_of_eq_nil hnone, ← ih, List.append_assoc, List.singleton_append]
  | case4 held d rest hcircular hconflict ih =>
    rw [Fate.allRegistered_cons_refused, List.filter_cons_of_pos (by simp [hcircular]),
      List.foldl_cons, accept_of_ne_nil hconflict, ih]

/-- The findings on cycles are those of the circular definitions. -/
theorem circular_findings_fatesFrom (all held ds : List (Definition m)) :
    (fatesFrom all held ds).flatMap (Fate.findings .importsAcyclic) =
      (ds.filter fun d => decide (Circular all d)).map circularFinding := by
  fun_induction fatesFrom all held ds with
  | case1 => rfl
  | case2 held d rest hcircular ih =>
    rw [List.flatMap_cons, ih, List.filter_cons_of_pos (by simp [hcircular]), List.map_cons]
    rfl
  | case3 held d rest hcircular hnone ih =>
    rw [List.flatMap_cons, ih, List.filter_cons_of_neg (by simp [hcircular])]
    rfl
  | case4 held d rest hcircular hconflict ih =>
    rw [List.flatMap_cons, ih, List.filter_cons_of_neg (by simp [hcircular])]
    rfl

/-- The findings on conflicts are those of the registration. -/
theorem conflict_findings_fatesFrom (all held ds : List (Definition m)) :
    (fatesFrom all held ds).flatMap (Fate.findings .uniqueNames) =
      findingsFrom held (ds.filter fun d => !decide (Circular all d)) := by
  fun_induction fatesFrom all held ds with
  | case1 => rfl
  | case2 held d rest hcircular ih =>
    rw [List.flatMap_cons, ih, List.filter_cons_of_neg (by simp [hcircular])]
    rfl
  | case3 held d rest hcircular hnone ih =>
    rw [List.flatMap_cons, ih, List.filter_cons_of_pos (by simp [hcircular]), findingsFrom, hnone,
      accept_of_eq_nil hnone]
    rfl
  | case4 held d rest hcircular hconflict ih =>
    rw [List.flatMap_cons, ih, List.filter_cons_of_pos (by simp [hcircular]), findingsFrom,
      accept_of_ne_nil hconflict]
    rfl

/-! ## Reasons -/

theorem justified_refused {d : Definition m} (hcircular : ¬ Circular all d)
    (hconflict : conflictFindings held d ≠ []) :
    (Fate.refused d (conflictFindings held d)).Justified all held := by
  have hclash : ∃ e ∈ held, e.Clashes d := by
    by_contra hfree
    refine hconflict (conflictFindings_eq_nil_iff.2 ?_)
    intro e he hclashes
    exact hfree ⟨e, he, hclashes⟩
  refine ⟨hcircular, hclash, length_conflictFindings hconflict, ?_⟩
  intro f hf
  exact of_mem_conflictFindings hf

/-- Every fate is right in view of those before it. -/
theorem justified_fatesFrom {before after : List (Fate m)} {fate : Fate m}
    (h : fatesFrom all held ds = before ++ fate :: after) :
    fate.Justified all (held ++ Fate.allRegistered before) := by
  fun_induction fatesFrom all held ds generalizing before with
  | case1 => cases before <;> cases h
  | case2 held d rest hcircular ih =>
    cases before with
    | nil =>
      cases h
      exact hcircular
    | cons first before =>
      obtain ⟨rfl, hrest⟩ := List.cons.inj h
      have hfate := ih hrest
      exact hfate
  | case3 held d rest hcircular hnone ih =>
    cases before with
    | nil =>
      cases h
      rw [Fate.allRegistered_nil, List.append_nil]
      exact ⟨hcircular, conflictFindings_eq_nil_iff.1 hnone⟩
    | cons first before =>
      -- the definition at the front is among those registered before the later ones
      obtain ⟨rfl, hrest⟩ := List.cons.inj h
      have hfate := ih hrest
      rwa [List.append_assoc, List.singleton_append] at hfate
  | case4 held d rest hcircular hconflict ih =>
    cases before with
    | nil =>
      cases h
      rw [Fate.allRegistered_nil, List.append_nil]
      exact justified_refused hcircular hconflict
    | cons first before =>
      obtain ⟨rfl, hrest⟩ := List.cons.inj h
      have hfate := ih hrest
      exact hfate

end Definition

open Definition (missingFindings circularFindings findingsFrom survivors accepted fates)

/-! ## The findings of one rule -/

namespace Definition

variable {ds : List (Definition m)}

theorem rule_of_mem_missingFindings {f : Diagnostic} (h : f ∈ missingFindings ds) :
    f.rule = .importsExist := by
  obtain ⟨d, -, hf⟩ := List.mem_flatMap.1 h
  obtain ⟨i, -, rfl⟩ := List.mem_map.1 hf
  rfl

theorem rule_of_mem_circularFindings {f : Diagnostic} (h : f ∈ circularFindings ds) :
    f.rule = .importsAcyclic := by
  obtain ⟨d, -, rfl⟩ := List.mem_map.1 h
  rfl

theorem rule_of_mem_findingsFrom {held : List (Definition m)} {f : Diagnostic}
    (h : f ∈ findingsFrom held ds) : f.rule = .uniqueNames := by
  induction ds generalizing held with
  | nil => exact absurd h List.not_mem_nil
  | cons d ds ih =>
    rcases List.mem_append.1 h with hf | hf
    · exact (of_mem_conflictFindings hf).1
    · exact ih hf

end Definition

/-- Findings of one rule are all kept or all left out when those of a rule are picked out. -/
theorem filter_rule_of_forall {rule : RuleKind} {found : List Diagnostic}
    (h : ∀ f ∈ found, f.rule = rule) (wanted : RuleKind) :
    found.filter (·.rule = wanted) = if rule = wanted then found else [] := by
  split
  · rename_i heq
    refine List.filter_eq_self.2 ?_
    intro f hf
    simp [h f hf, heq]
  · rename_i hne
    refine List.filter_eq_nil_iff.2 ?_
    intro f hf
    simp [h f hf, hne]

namespace Registry

theorem filter_rule_assembleWith (schema : SchemaNames) (descriptions : Descriptions)
    (ds : List (Definition m)) (rule : RuleKind) :
    (assembleWith schema Rule.standard descriptions ds).diagnostics.filter (·.rule = rule) =
      (if RuleKind.importsExist = rule then missingFindings ds else []) ++
        (if RuleKind.importsAcyclic = rule then circularFindings ds else []) ++
        if RuleKind.uniqueNames = rule then findingsFrom [] (survivors ds) else [] := by
  rw [diagnostics_assembleWith, List.filter_append, List.filter_append,
    filter_rule_of_forall (fun _ => Definition.rule_of_mem_missingFindings),
    filter_rule_of_forall (fun _ => Definition.rule_of_mem_circularFindings),
    filter_rule_of_forall (fun _ => Definition.rule_of_mem_findingsFrom)]

end Registry

/-! ## Slots in order -/

/-- The slot was made of the definition, or of what the passes made of it: they change nothing but
description and fields. -/
def Slot.MadeOf (slot : Slot m) (d : Definition m) : Prop :=
  ∃ e : Definition m, e.heading = d.heading ∧ slot = Slot.ofDefinition e

theorem Slot.forall₂_madeOf {es ds : List (Definition m)}
    (h : es.map Definition.heading = ds.map Definition.heading) :
    List.Forall₂ MadeOf (es.map Slot.ofDefinition) ds := by
  have heq : List.Forall₂ (· = ·) (es.map Definition.heading) (ds.map Definition.heading) := by
    rw [List.forall₂_eq_eq_eq]
    exact h
  rw [List.forall₂_map_left_iff, List.forall₂_map_right_iff] at heq
  rw [List.forall₂_map_left_iff]
  exact heq.imp fun e d hheading => ⟨e, hheading, rfl⟩

/-! ## The account -/

/-- What became of the definitions accounts for the registry. -/
structure Registry.AccountedBy (r : Registry m) (ds : List (Definition m)) (fates : List (Fate m)) :
    Prop where
  /-- Every definition has one fate, at its position. -/
  one_each : fates.map Fate.definition = ds
  /-- It is the right one in view of what has been registered before. -/
  justified : ∀ before fate after, fates = before ++ fate :: after →
    fate.Justified ds (Fate.allRegistered before)
  /-- The findings on cycles and on conflicts are what the fates contribute. -/
  findings : ∀ rule, rule ≠ .importsExist →
    r.diagnostics.filter (·.rule = rule) = fates.flatMap (Fate.findings rule)
  /-- The slots of a category are those of its registered definitions, in their order. -/
  slots : ∀ category, List.Forall₂ Slot.MadeOf (r.index category).slots
    ((Fate.allRegistered fates).filter (·.category = category))
  total : ds.length = r.types.names.size + r.directives.names.size +
    (r.diagnostics.filter (·.rule = .importsAcyclic)).length + (fates.filter Fate.isRefused).length

/-- No definition is lost and none is counted twice: whatever is assembled under the built-in rules, each
definition is left out as circular with one finding, or refused with one or two, or has one slot. -/
theorem assembly_accounts_for_every_definition (schema : SchemaNames) (descriptions : Descriptions)
    (ds : List (Definition m)) :
    (Registry.assembleWith schema Rule.standard descriptions ds).AccountedBy ds (fates ds) := by
  have hheadings := Registry.accepted_finished_headings schema descriptions ds
  have hregistered : Fate.allRegistered (fates ds) = accepted (survivors ds) :=
    Definition.allRegistered_fatesFrom ds [] ds
  have hholds := Registry.assembleWith_holds schema descriptions ds
  have hcircular := Definition.circular_findings_fatesFrom ds [] ds
  have hfindings : ∀ rule, rule ≠ .importsExist →
      (Registry.assembleWith schema Rule.standard descriptions ds).diagnostics.filter
        (·.rule = rule) = (fates ds).flatMap (Fate.findings rule) := by
    intro rule hrule
    rw [Registry.filter_rule_assembleWith]
    cases rule with
    | importsExist => exact absurd rfl hrule
    | importsAcyclic =>
      rw [if_neg (by decide), if_pos rfl, if_neg (by decide), List.nil_append, List.append_nil]
      exact hcircular.symm
    | uniqueNames =>
      rw [if_neg (by decide), if_neg (by decide), if_pos rfl, List.nil_append, List.nil_append]
      exact (Definition.conflict_findings_fatesFrom ds [] ds).symm
  refine ⟨?_, ?_, hfindings, ?_, ?_⟩
  · exact Definition.definitions_fatesFrom ds [] ds
  · intro before fate after hfates
    exact Definition.justified_fatesFrom hfates
  · -- the passes change no heading, so the slots match the definitions as they were given
    intro category
    rw [hholds.slots category, hregistered]
    exact Slot.forall₂_madeOf (Definition.filter_headings hheadings category)
  · have hsize := hholds.size_names (Definition.compatible_accepted _)
    have hlength : (accepted (Definition.finished schema descriptions ds)).length =
        (Fate.allRegistered (fates ds)).length := by
      rw [hregistered, ← List.length_map Definition.heading, hheadings, List.length_map]
    have hpositions : ds.length = (fates ds).length := by
      rw [← List.length_map Fate.definition]
      exact congrArg List.length (Definition.definitions_fatesFrom ds [] ds).symm
    rw [hpositions, Fate.length_eq_add, hfindings .importsAcyclic (by decide), hsize, hlength]

end SchemaRegistry
