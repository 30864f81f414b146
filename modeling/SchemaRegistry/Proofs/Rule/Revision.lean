import SchemaRegistry.Rule.Revision
import SchemaRegistry.Proofs.Validity

/-!
# Pipelines with revisions in them

Rules run one after the other, so a pipeline can be cut anywhere (`Rule.runAll_append`), and what every rule
of it keeps the whole of it keeps (`Rule.induction_from`). Every rule of the library, the revisions included,
hands on definitions with headings it was given (`Rule.KeepsHeadings`), and all of them but `Rule.forgetting`
keep the findings so far (`Rule.KeepsFindings`).

So nothing makes a schema valid again once a finding was reported (`not_isValid_of_reporting`), but to forget
all findings leaves the conflicts of the registration alone to decide (`isValid_forgetting_iff`). An idle rule
can be left out, and so can two that turn the order around (`runAll_idle`, `runAll_reversing_twice`). And if
the circular types have been left out by their identifiers, the rule on cycles finds nothing
(`importsAcyclic_after_leavingOut`).
-/

namespace SchemaRegistry

variable {m : Type → Type}

namespace Rule

/-! ## Pipelines -/

/-- Runs rules one after the other on what was handed on so far. -/
def runFrom (c : Checked m) (rules : List (Rule m)) : Checked m :=
  rules.foldl (fun checked rule => rule.check checked) c

theorem runFrom_append (c : Checked m) (rules more : List (Rule m)) :
    runFrom c (rules ++ more) = runFrom (runFrom c rules) more := List.foldl_append

theorem runAll_append (rules more : List (Rule m)) (ds : List (Definition m)) :
    runAll (rules ++ more) ds = runFrom (runAll rules ds) more := runFrom_append _ rules more

/-- What is so at the start and is kept by every rule is so in the end. -/
theorem induction_from {P : Checked m → Prop} {rules : List (Rule m)}
    (hstep : ∀ rule ∈ rules, ∀ c, P c → P (rule.check c)) {c : Checked m} (h : P c) :
    P (runFrom c rules) := by
  induction rules generalizing c with
  | nil => exact h
  | cons rule rest ih =>
    obtain ⟨hrule, hrest⟩ := List.forall_mem_cons.1 hstep
    exact ih hrest (hrule c h)

/-! ## What rules keep -/

/-- Every definition that the rule hands on has the heading of one that it was given. -/
def KeepsHeadings (rule : Rule m) : Prop :=
  ∀ c, ∀ d ∈ (rule.check c).definitions, ∃ e ∈ c.definitions, e.heading = d.heading

/-- The findings so far stay, in front of those of the rule. -/
def KeepsFindings (rule : Rule m) : Prop := ∀ c, c.diagnostics <+: (rule.check c).diagnostics

theorem keepsHeadings_of_subset {rule : Rule m}
    (h : ∀ c, (rule.check c).definitions ⊆ c.definitions) : rule.KeepsHeadings :=
  fun c d hd => ⟨d, h c hd, rfl⟩

/-- A pipeline of rules that keep headings keeps them. -/
theorem exists_heading_of_mem_runFrom {rules : List (Rule m)} (h : ∀ rule ∈ rules, rule.KeepsHeadings)
    {c : Checked m} {d : Definition m} (hd : d ∈ (runFrom c rules).definitions) :
    ∃ e ∈ c.definitions, e.heading = d.heading := by
  refine induction_from (P := fun c' => ∀ d ∈ c'.definitions, ∃ e ∈ c.definitions, e.heading = d.heading)
    ?_ (fun d hd => ⟨d, hd, rfl⟩) d hd
  intro rule hrule c' hc' d hd
  obtain ⟨e, he, hheading⟩ := h rule hrule c' d hd
  obtain ⟨given, hgiven, hsame⟩ := hc' e he
  exact ⟨given, hgiven, hsame.trans hheading⟩

/-- A pipeline of rules that keep findings keeps them. -/
theorem diagnostics_prefix_runFrom {rules : List (Rule m)} (h : ∀ rule ∈ rules, rule.KeepsFindings)
    (c : Checked m) : c.diagnostics <+: (runFrom c rules).diagnostics :=
  induction_from (P := fun c' => c.diagnostics <+: c'.diagnostics)
    (fun rule hrule c' hc' => hc'.trans (h rule hrule c')) (List.prefix_refl _)

section Library

variable (name : String)

theorem keepsHeadings_importsExist : (importsExist : Rule m).KeepsHeadings :=
  keepsHeadings_of_subset fun _ => List.Subset.refl _

theorem keepsHeadings_importsAcyclic : (importsAcyclic : Rule m).KeepsHeadings := by
  intro c d hd
  rw [check_importsAcyclic] at hd
  obtain ⟨e, he, rfl⟩ := List.mem_map.1 hd
  exact ⟨e, (Definition.mem_survivors.1 he).1, (Definition.heading_importFields _ e).symm⟩

theorem keepsHeadings_leavingOut (identifiers : List String) :
    (leavingOut name identifiers : Rule m).KeepsHeadings :=
  keepsHeadings_of_subset fun _ => List.filter_sublist.subset

theorem keepsHeadings_reversing : (reversing name : Rule m).KeepsHeadings :=
  keepsHeadings_of_subset fun _ => List.reverse_subset.2 (List.Subset.refl _)

theorem keepsHeadings_forgetting : (forgetting name : Rule m).KeepsHeadings :=
  keepsHeadings_of_subset fun _ => List.Subset.refl _

theorem keepsHeadings_reporting (finding : Diagnostic) : (reporting name finding : Rule m).KeepsHeadings :=
  keepsHeadings_of_subset fun _ => List.Subset.refl _

theorem keepsHeadings_idle : (idle name : Rule m).KeepsHeadings :=
  keepsHeadings_of_subset fun _ => List.Subset.refl _

theorem keepsHeadings_standard : ∀ rule ∈ (standard : List (Rule m)), rule.KeepsHeadings :=
  List.forall_mem_cons.2 ⟨keepsHeadings_importsExist,
    List.forall_mem_singleton.2 keepsHeadings_importsAcyclic⟩

theorem keepsFindings_importsExist : (importsExist : Rule m).KeepsFindings :=
  fun _ => List.prefix_append _ _

theorem keepsFindings_importsAcyclic : (importsAcyclic : Rule m).KeepsFindings :=
  fun _ => List.prefix_append _ _

theorem keepsFindings_leavingOut (identifiers : List String) :
    (leavingOut name identifiers : Rule m).KeepsFindings := fun _ => List.prefix_refl _

theorem keepsFindings_reversing : (reversing name : Rule m).KeepsFindings :=
  fun _ => List.prefix_refl _

theorem keepsFindings_reporting (finding : Diagnostic) : (reporting name finding : Rule m).KeepsFindings :=
  fun _ => List.prefix_append _ _

theorem keepsFindings_idle : (idle name : Rule m).KeepsFindings := fun _ => List.prefix_refl _

end Library

end Rule

/-! ## Revisions in a pipeline -/

open Rule (runFrom runAll_append)
open Definition (Compatible OnCycle findingsFrom prepare)

/-- First come the findings of the rules, whatever rules they are, then the conflicts of the registration. -/
theorem Registry.diagnostics_assembleWith_rules (schema : SchemaNames) (rules : List (Rule m))
    (descriptions : Descriptions) (ds : List (Definition m)) :
    (assembleWith schema rules descriptions ds).diagnostics =
      (Rule.runAll rules (prepare schema descriptions ds)).diagnostics ++
        findingsFrom [] (Rule.runAll rules (prepare schema descriptions ds)).definitions :=
  diagnostics_ofDefinitions _ _ _

/-- A rule that does nothing can be left out of a pipeline. -/
theorem runAll_idle (before after : List (Rule m)) (name : String) (ds : List (Definition m)) :
    Rule.runAll (before ++ .idle name :: after) ds = Rule.runAll (before ++ after) ds := by
  rw [runAll_append, runAll_append]
  rfl

/-- To turn the order around twice is to leave it as it is. -/
theorem runAll_reversing_twice (before after : List (Rule m)) (name name' : String)
    (ds : List (Definition m)) :
    Rule.runAll (before ++ .reversing name :: .reversing name' :: after) ds =
      Rule.runAll (before ++ after) ds := by
  rw [runAll_append, runAll_append]
  have htwice : ∀ c : Checked m,
      (Rule.reversing name').check ((Rule.reversing name).check c) = c := by
    intro c
    simp only [Rule.reversing, List.reverse_reverse]
  exact congrArg (runFrom · after) (htwice _)

/-- What one rule reports and the rules after it keep is a finding of the registry, which is not valid. -/
theorem not_isValid_of_reporting (schema : SchemaNames) (descriptions : Descriptions)
    (before : List (Rule m)) {after : List (Rule m)} (hafter : ∀ rule ∈ after, rule.KeepsFindings)
    (name : String) (finding : Diagnostic) (ds : List (Definition m)) :
    let r := Registry.assembleWith schema (before ++ .reporting name finding :: after) descriptions ds
    finding ∈ r.diagnostics ∧ r.isValid = false := by
  intro r
  let reached := Rule.runAll before (prepare schema descriptions ds)
  have hreported : finding ∈ ((Rule.reporting name finding).check reached).diagnostics :=
    List.mem_append_right _ (List.mem_singleton_self finding)
  have hkept := (Rule.diagnostics_prefix_runFrom hafter
    ((Rule.reporting name finding).check reached)).subset hreported
  have hmem : finding ∈ r.diagnostics := by
    rw [Registry.diagnostics_assembleWith_rules, runAll_append]
    exact List.mem_append_left _ hkept
  refine ⟨hmem, ?_⟩
  rw [← Bool.not_eq_true, Registry.isValid_iff]
  exact List.ne_nil_of_mem hmem

/-- If all findings of the rules are forgotten in the end, the schema is valid if and only if the definitions
that the rules hand on can all be registered. -/
theorem isValid_forgetting_iff (schema : SchemaNames) (descriptions : Descriptions)
    (rules : List (Rule m)) (name : String) (ds : List (Definition m)) :
    (Registry.assembleWith schema (rules ++ [.forgetting name]) descriptions ds).isValid = true ↔
      Compatible (Rule.runAll rules (prepare schema descriptions ds)).definitions := by
  rw [Registry.isValid_iff, Registry.diagnostics_assembleWith_rules, runAll_append]
  exact Definition.findingsFrom_eq_nil_iff List.Pairwise.nil

/-- Where at least the identifiers on a cycle have been left out, the rule on cycles finds nothing and hands on
all that is left, with the headings it has. -/
theorem importsAcyclic_after_leavingOut (c : Checked m) (name : String) {identifiers : List String}
    (h : ∀ i, OnCycle c.definitions i → i ∈ identifiers) :
    let left := (Rule.leavingOut name identifiers).check c
    (Rule.importsAcyclic.check left).diagnostics = c.diagnostics ∧
      (Rule.importsAcyclic.check left).definitions.map Definition.heading =
        left.definitions.map Definition.heading := by
  intro left
  have hacyclic : ∀ i, ¬ OnCycle left.definitions i := by
    intro i hi
    -- the identifier on the cycle is that of a definition that was not left out
    obtain ⟨d, hd, -, hcycle⟩ := Definition.exists_circular_of_onCycle hi
    obtain ⟨-, hkept⟩ := List.mem_filter.1 hd
    have hlisted := h d.identifier (Definition.onCycle_of_subset List.filter_sublist.subset hcycle)
    rw [List.contains_iff_mem.2 hlisted] at hkept
    cases hkept
  rw [Rule.check_importsAcyclic]
  constructor
  · rw [Definition.casualties_eq_nil_iff.2 hacyclic, List.map_nil, List.append_nil]
    rfl
  · rw [Definition.importFields_headings, Definition.survivors_eq_self hacyclic]

end SchemaRegistry
