import SchemaRegistry.Proofs.Definition.Preparation
import SchemaRegistry.Proofs.Registry.Registration

/-!
# What an assembly comes to

An assembly under the built-in rules is put together here from what its passes do: the definitions that
reach the registration (`Definition.finished`), the findings in their order
(`Registry.diagnostics_assembleWith`) and the registered definitions
(`Registry.assembleWith_holds`). The findings are those of the definitions as they were given, because
no pass changes a heading.
-/

namespace SchemaRegistry

variable {m : Type → Type}

namespace Definition

/-! ## Registration looks at headings only -/

theorem conflictFindings_heading (held : List (Definition m)) (d : Definition m) :
    conflictFindings (held.map heading) d.heading = conflictFindings held d := by
  have hidentifier : identifierTaken (held.map heading) d.heading = identifierTaken held d := by
    rw [identifierTaken, List.any_map]
    rfl
  have hname : nameTaken (held.map heading) d.heading = nameTaken held d := by
    rw [nameTaken, List.any_map]
    rfl
  rw [conflictFindings, hidentifier, hname]
  rfl

theorem accept_heading (held : List (Definition m)) (d : Definition m) :
    accept (held.map heading) d.heading = (accept held d).map heading := by
  unfold accept
  rw [conflictFindings_heading]
  split
  · simp
  · rfl

theorem findingsFrom_map_heading (held ds : List (Definition m)) :
    findingsFrom (held.map heading) (ds.map heading) = findingsFrom held ds := by
  induction ds generalizing held with
  | nil => rfl
  | cons d ds ih =>
    rw [List.map_cons, findingsFrom, conflictFindings_heading, accept_heading, ih, findingsFrom]

theorem foldl_accept_map_heading (held ds : List (Definition m)) :
    (ds.map heading).foldl accept (held.map heading) = (ds.foldl accept held).map heading := by
  induction ds generalizing held with
  | nil => rfl
  | cons d ds ih => rw [List.map_cons, List.foldl_cons, accept_heading, ih, List.foldl_cons]

theorem accepted_map_heading (ds : List (Definition m)) :
    accepted (ds.map heading) = (accepted ds).map heading :=
  foldl_accept_map_heading [] ds

theorem compatible_map_heading (ds : List (Definition m)) :
    Compatible (ds.map heading) ↔ Compatible ds := by
  rw [Compatible, List.pairwise_map]
  rfl

theorem Compatible.of_headings {ds ds' : List (Definition m)} (h : Compatible ds)
    (hheadings : ds'.map heading = ds.map heading) : Compatible ds' := by
  rwa [← compatible_map_heading, hheadings, compatible_map_heading]

/-! ## The definitions that reach the registration -/

/-- What the passes before the registration make of the definitions. -/
def finished (schema : SchemaNames) (descriptions : Descriptions) (ds : List (Definition m)) :
    List (Definition m) :=
  (survivors (prepare schema descriptions ds)).map
    (importFields (completeFields (prepare schema descriptions ds)))

/-- They are the definitions on no cycle, with the headings they were given with. -/
theorem finished_headings (schema : SchemaNames) (descriptions : Descriptions)
    (ds : List (Definition m)) :
    (finished schema descriptions ds).map heading = (survivors ds).map heading := by
  rw [finished, importFields_headings, survivors_headings (prepare_headings schema descriptions ds)]

theorem Compatible.survivors {ds : List (Definition m)} (h : Compatible ds) :
    Compatible (survivors ds) := h.filter _

/-- The passes make no new conflicts. -/
theorem Compatible.finished {ds : List (Definition m)} (h : Compatible ds) (schema : SchemaNames)
    (descriptions : Descriptions) : Compatible (finished schema descriptions ds) :=
  h.survivors.of_headings (finished_headings schema descriptions ds)

end Definition

open Definition (prepare finished missingFindings circularFindings findingsFrom survivors accepted)

/-- The two built-in rules, one after the other. -/
theorem Rule.runAll_standard (ds : List (Definition m)) :
    Rule.runAll Rule.standard ds =
      { definitions := (survivors ds).map (importFields (Definition.completeFields ds))
        diagnostics := missingFindings ds ++ circularFindings ds } := by
  have hrun : Rule.runAll Rule.standard ds =
      Rule.importsAcyclic.check ⟨ds, [] ++ missingFindings ds⟩ := rfl
  rw [hrun, Rule.check_importsAcyclic, List.nil_append]
  rfl

namespace Registry

theorem assembleWith_standard (schema : SchemaNames) (descriptions : Descriptions)
    (ds : List (Definition m)) :
    assembleWith schema Rule.standard descriptions ds =
      ofDefinitions schema.builtinSource (finished schema descriptions ds)
        (missingFindings (prepare schema descriptions ds) ++
          circularFindings (prepare schema descriptions ds)) := by
  unfold assembleWith
  rw [Rule.runAll_standard]
  rfl

/-- First come the imports from types that do not exist, then the circular definitions, then the
conflicts between the others. -/
theorem diagnostics_assembleWith (schema : SchemaNames) (descriptions : Descriptions)
    (ds : List (Definition m)) :
    (assembleWith schema Rule.standard descriptions ds).diagnostics =
      missingFindings ds ++ circularFindings ds ++ findingsFrom [] (survivors ds) := by
  have hprepared := Definition.prepare_headings schema descriptions ds
  have hmissing : missingFindings (prepare schema descriptions ds) = missingFindings ds :=
    Definition.eq_of_headings hprepared Definition.missingFindings_map_heading
  have hcircular : circularFindings (prepare schema descriptions ds) = circularFindings ds :=
    Definition.eq_of_headings hprepared Definition.circularFindings_map_heading
  have hconflicts : findingsFrom [] (finished schema descriptions ds) =
      findingsFrom [] (survivors ds) :=
    Definition.eq_of_headings (Definition.finished_headings schema descriptions ds)
      (Definition.findingsFrom_map_heading [])
  rw [assembleWith_standard, diagnostics_ofDefinitions, hmissing, hcircular, hconflicts]

theorem assembleWith_holds (schema : SchemaNames) (descriptions : Descriptions)
    (ds : List (Definition m)) :
    (assembleWith schema Rule.standard descriptions ds).Holds
      (accepted (finished schema descriptions ds)) := by
  rw [assembleWith_standard]
  exact ofDefinitions_holds _ _ _

/-- Compatible definitions are all registered, except those that take part in a cycle. -/
theorem assembleWith_holds_of_compatible {ds : List (Definition m)} (h : Definition.Compatible ds)
    (schema : SchemaNames) (descriptions : Descriptions) :
    (assembleWith schema Rule.standard descriptions ds).Holds (finished schema descriptions ds) := by
  have hholds := assembleWith_holds schema descriptions ds
  rwa [Definition.accepted_of_compatible (h.finished schema descriptions)] at hholds

/-- The registered definitions have the headings of those that are accepted as they were given. -/
theorem accepted_finished_headings (schema : SchemaNames) (descriptions : Descriptions)
    (ds : List (Definition m)) :
    (accepted (finished schema descriptions ds)).map Definition.heading =
      (accepted (survivors ds)).map Definition.heading := by
  rw [← Definition.accepted_map_heading, Definition.finished_headings,
    Definition.accepted_map_heading]

end Registry

end SchemaRegistry
