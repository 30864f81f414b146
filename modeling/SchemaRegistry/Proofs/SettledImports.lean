import SchemaRegistry.Proofs.Definition.Heading

/-!
# Settled imports

A list of definitions is settled (`Definition.Settled`) if nothing in it takes part in a cycle of
imports and each type already has, by their identifiers, all fields that its imports bring. Nothing is
said of a table here: what an import brings are the fields that its target has in the list itself.

The rule on cycles leaves a list as it is if and only if it is settled (`Rule.check_eq_self_iff`). That
a settled list stays is shown by induction along the imports: if the targets of a type are complete as
they are, so is the type (`Definition.Settled.get?_completeFields`). And what the rule hands on is
settled (`Rule.settled_check`), because all types are completed from one table and leaving out
definitions closes no cycle. So a second run of the rule changes nothing (`importsAcyclic_idempotent`).
-/

namespace SchemaRegistry

open Relation

variable {m : Type → Type}

/-! ## Imports that bring nothing -/

/-- The list has every offered field that is not excepted, by its identifier at least. -/
def Field.Covered (except : List String) (fields offered : List Field) : Prop :=
  ∀ f ∈ offered, f.identifier ∉ except → ∃ g ∈ fields, g.identifier = f.identifier

theorem addFields_of_covered {except : List String} {fields offered : List Field}
    (h : Field.Covered except fields offered) : addFields except fields offered = fields := by
  induction offered with
  | nil => rfl
  | cons f offered ih =>
    have htaken : f.identifier ∈ except ∨ ∃ g ∈ fields, g.identifier = f.identifier := by
      by_cases hexcept : f.identifier ∈ except
      · exact .inl hexcept
      · exact .inr (h f List.mem_cons_self hexcept)
    rw [addFields_cons, if_pos htaken]
    exact ih fun g hg => h g (List.mem_cons_of_mem _ hg)

theorem foldl_takeImport_of_covered {table : SortedMap (List Field)} {fields : List Field}
    {imports : List FieldImport}
    (h : ∀ i ∈ imports, ∀ offered, table.get? i.target = some offered →
      Field.Covered i.except fields offered) :
    imports.foldl (takeImport table) fields = fields := by
  induction imports with
  | nil => rfl
  | cons i imports ih =>
    have hfirst : takeImport table fields i = fields := by
      unfold takeImport
      split
      · rename_i offered hoffered
        exact addFields_of_covered (h i List.mem_cons_self offered hoffered)
      · rfl
    rw [List.foldl_cons, hfirst]
    exact ih fun j hj => h j (List.mem_cons_of_mem _ hj)

/-- Merging adds nothing if and only if the definition has all that its imports find in the table. -/
theorem mergedFields_eq_self_iff {table : SortedMap (List Field)} {d : Definition m} :
    mergedFields table d = d.fields ↔
      ∀ i ∈ d.fieldImports, ∀ offered, table.get? i.target = some offered →
        Field.Covered i.except d.fields offered := by
  constructor
  · intro hself i hi offered hoffered f hf hexcept
    rw [← hself]
    exact mergedFields_covers hi hoffered hf hexcept
  · intro hcovered
    rw [mergedFields_eq_foldl]
    exact foldl_takeImport_of_covered hcovered

namespace Definition

variable {ds : List (Definition m)}

/-! ## Settled lists -/

/-- Nothing lies on a cycle, and every type has the fields that its imports bring: those of the first
type with the identifier of the target, as this type stands in the list. -/
structure Settled (ds : List (Definition m)) : Prop where
  acyclic : ∀ i, ¬ OnCycle ds i
  complete : ∀ d ∈ ds, d.isType = true → ∀ i ∈ d.fieldImports, ∀ t,
    ds.find? (isTypeNamed i.target) = some t → Field.Covered i.except d.fields t.fields

/-- Without cycles the complete fields of a type are what the first definition of it merges. -/
theorem get?_completeFields_of_acyclic (h : ∀ i, ¬ OnCycle ds i) (u : String) :
    (completeFields ds).get? u =
      (ds.find? (isTypeNamed u)).map (mergedFields (completeFields ds)) := by
  rw [get?_completeFields, survivors_eq_self h]

/-- In a settled list the complete fields of a type are those that it has. -/
theorem Settled.get?_completeFields (h : Settled ds) (u : String) :
    (completeFields ds).get? u = (ds.find? (isTypeNamed u)).map (·.fields) := by
  have hpresent : ∀ u, (∃ d ∈ ds, d.isTypeNamed u = true) → ¬ OnCycle ds u →
      (completeFields ds).get? u = (ds.find? (isTypeNamed u)).map (·.fields) := by
    refine imports_induction ?_
    intro u _ hbefore
    rw [get?_completeFields_of_acyclic h.acyclic]
    cases hfind : ds.find? (isTypeNamed u) with
    | none => rfl
    | some d =>
      have hd : d ∈ ds := List.mem_of_find?_eq_some hfind
      have hnamed : d.isTypeNamed u = true := List.find?_some hfind
      have hself : mergedFields (completeFields ds) d = d.fields := by
        rw [mergedFields_eq_self_iff]
        intro i hi offered hoffered
        -- by hypothesis the table has for the target just the fields that stand in the list
        have hexists : ∃ t ∈ ds, t.isTypeNamed i.target = true := by
          rw [get?_completeFields_of_acyclic h.acyclic, Option.map_eq_some_iff] at hoffered
          obtain ⟨t, ht, -⟩ := hoffered
          exact ⟨t, List.mem_of_find?_eq_some ht, List.find?_some ht⟩
        have hedge : Imports ds u i.target := ⟨⟨d, hd, hnamed, i, hi, rfl⟩, hexists⟩
        rw [hbefore i.target hedge (h.acyclic _), Option.map_eq_some_iff] at hoffered
        obtain ⟨t, ht, rfl⟩ := hoffered
        exact h.complete d hd (isTypeNamed_iff.1 hnamed).1 i hi t ht
      rw [Option.map_some, Option.map_some, hself]
  by_cases hu : ∃ d ∈ ds, d.isTypeNamed u = true
  · exact hpresent u hu (h.acyclic u)
  · have hnone : ds.find? (isTypeNamed u) = none := by
      rw [List.find?_eq_none]
      intro d hd hnamed
      exact hu ⟨d, hd, hnamed⟩
    rw [get?_completeFields_of_acyclic h.acyclic, hnone, Option.map_none, Option.map_none]

/-- In a settled list there is nothing left to import. -/
theorem Settled.importFields_eq_self (h : Settled ds) {d : Definition m} (hd : d ∈ ds) :
    importFields (completeFields ds) d = d := by
  cases htype : d.isType with
  | false => exact importFields_of_unaffected (.inl htype) _
  | true =>
    have hself : mergedFields (completeFields ds) d = d.fields := by
      rw [mergedFields_eq_self_iff]
      intro i hi offered hoffered
      rw [h.get?_completeFields, Option.map_eq_some_iff] at hoffered
      obtain ⟨t, ht, rfl⟩ := hoffered
      exact h.complete d hd htype i hi t ht
    rw [importFields_of_isType htype, hself]
    rfl

/-- A list in which nothing is left to import, and nothing lies on a cycle, is settled. -/
theorem settled_of_importFields_eq_self (hacyclic : ∀ i, ¬ OnCycle ds i)
    (hself : ∀ d ∈ ds, importFields (completeFields ds) d = d) : Settled ds where
  acyclic := hacyclic
  complete := by
    have hmerged : ∀ d ∈ ds, d.isType = true → mergedFields (completeFields ds) d = d.fields := by
      intro d hd htype
      have hfields := congrArg (fun e : Definition m => e.fields) (hself d hd)
      rwa [importFields_of_isType htype] at hfields
    intro d hd htype i hi t ht
    have httype : t.isType = true := (isTypeNamed_iff.1 (List.find?_some ht)).1
    have hoffered : (completeFields ds).get? i.target = some t.fields := by
      rw [get?_completeFields_of_acyclic hacyclic, ht, Option.map_some,
        hmerged t (List.mem_of_find?_eq_some ht) httype]
    exact mergedFields_eq_self_iff.1 (hmerged d hd htype) i hi t.fields hoffered

/-! ## What survives is acyclic -/

/-- When the circular definitions are left out, no cycle is left. -/
theorem not_onCycle_survivors (ds : List (Definition m)) (i : String) :
    ¬ OnCycle (survivors ds) i := by
  intro hcycle
  obtain ⟨d, hd, htype, hcircle⟩ := exists_circular_of_onCycle hcycle
  obtain ⟨-, hcircular⟩ := mem_survivors.1 hd
  have hsubset : survivors ds ⊆ ds := fun e he => (mem_survivors.1 he).1
  -- the cycle among the survivors would be one among all definitions
  exact hcircular ⟨htype, onCycle_of_subset hsubset hcircle⟩

/-- Carrying out imports does not change which type comes first under an identifier. -/
theorem find?_map_importFields (table : SortedMap (List Field)) (identifier : String)
    (ds : List (Definition m)) :
    (ds.map (importFields table)).find? (isTypeNamed identifier) =
      (ds.find? (isTypeNamed identifier)).map (importFields table) := by
  have hsame : isTypeNamed identifier ∘ importFields table = isTypeNamed (m := m) identifier := by
    funext d
    exact isTypeNamed_importFields table identifier d
  rw [List.find?_map, hsame]

/-- What survives is settled once its imports are carried out. -/
theorem settled_importFields (ds : List (Definition m)) :
    Settled ((survivors ds).map (importFields (completeFields ds))) where
  acyclic := by
    have hcycle : OnCycle ((survivors ds).map (importFields (completeFields ds))) =
        OnCycle (survivors ds) :=
      eq_of_headings (importFields_headings _ _) onCycle_map_heading
    rw [hcycle]
    exact not_onCycle_survivors ds
  complete := by
    intro d' hd' htype i hi t' ht'
    obtain ⟨d, -, rfl⟩ := List.mem_map.1 hd'
    rw [find?_map_importFields, Option.map_eq_some_iff] at ht'
    obtain ⟨t, ht, rfl⟩ := ht'
    rw [isType_importFields] at htype
    rw [fieldImports_importFields] at hi
    have httype : t.isType = true := (isTypeNamed_iff.1 (List.find?_some ht)).1
    -- both were completed from the same table, which offers `d` what `t` has been given
    have hoffered : (completeFields ds).get? i.target = some (mergedFields (completeFields ds) t) := by
      rw [get?_completeFields, ht, Option.map_some]
    rw [importFields_of_isType htype, importFields_of_isType httype]
    intro f hf hexcept
    exact mergedFields_covers hi hoffered hf hexcept

end Definition

open Definition (Settled casualties survivors)

/-! ## The rule on settled lists -/

/-- The rule on cycles leaves exactly the settled lists as they are. -/
theorem Rule.check_eq_self_iff {c : Checked m} :
    Rule.importsAcyclic.check c = c ↔ Settled c.definitions := by
  obtain ⟨ds, diagnostics⟩ := c
  rw [Rule.check_importsAcyclic, Checked.mk.injEq]
  constructor
  · rintro ⟨hdefinitions, hdiagnostics⟩
    have hnone : casualties ds = [] := List.map_eq_nil_iff.1 (List.append_right_eq_self.1 hdiagnostics)
    have hacyclic := Definition.casualties_eq_nil_iff.1 hnone
    rw [Definition.survivors_eq_self hacyclic] at hdefinitions
    refine Definition.settled_of_importFields_eq_self hacyclic ?_
    exact List.map_inj_left.1 (hdefinitions.trans (List.map_id ds).symm)
  · intro h
    have hnone : casualties ds = [] := Definition.casualties_eq_nil_iff.2 h.acyclic
    refine ⟨?_, by rw [hnone, List.map_nil, List.append_nil]⟩
    rw [Definition.survivors_eq_self h.acyclic]
    exact (List.map_congr_left fun d hd => h.importFields_eq_self hd).trans (List.map_id ds)

/-- What the rule hands on is settled. -/
theorem Rule.settled_check (c : Checked m) :
    Settled (Rule.importsAcyclic.check c).definitions := by
  rw [Rule.check_importsAcyclic]
  exact Definition.settled_importFields c.definitions

/-- A second run of the rule on cycles changes nothing, although the definitions that the first one keeps
still have their imports: neither does it drop a definition or report one, nor does any of them get a
further field. -/
theorem importsAcyclic_idempotent (c : Checked m) :
    Rule.importsAcyclic.check (Rule.importsAcyclic.check c) = Rule.importsAcyclic.check c ∧
      survivors (Rule.importsAcyclic.check c).definitions =
        (Rule.importsAcyclic.check c).definitions ∧
      casualties (Rule.importsAcyclic.check c).definitions = [] ∧
      (Rule.importsAcyclic.check c).definitions.map (·.fieldImports) =
        (survivors c.definitions).map (·.fieldImports) := by
  have hsettled := Rule.settled_check c
  refine ⟨Rule.check_eq_self_iff.2 hsettled, Definition.survivors_eq_self hsettled.acyclic,
    Definition.casualties_eq_nil_iff.2 hsettled.acyclic, ?_⟩
  rw [Rule.check_importsAcyclic, List.map_map]
  exact List.map_congr_left fun d _ => Definition.fieldImports_importFields _ d

end SchemaRegistry
