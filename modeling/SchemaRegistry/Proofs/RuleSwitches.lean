import SchemaRegistry.Proofs.Registry.Lookup
import SchemaRegistry.Proofs.Registry.Notes
import SchemaRegistry.Proofs.Validity

/-!
# Assemblies under a configuration

A configuration may switch the built-in rules off, each by itself. Which definitions its rules hand on is
said by `Config.Keeps`, about the definitions as they were given: all of them, or all that are not
circular, each at its turn and with its heading (`Config.headings_handedOn`).

What is exported is a question of headings, so it can be read off the definitions that are kept
(`Registry.mem_exports_assemble`). In a valid registry all definitions are kept, and all of them are
registered, whatever the switches are (`Registry.exists_registers_of_isValid`).
-/

namespace SchemaRegistry

variable {m : Type → Type}

open Definition (Circular Compatible prepare heading survivors completeFields missingFindings
  circularFindings findingsFrom)

/-! ## What the rules hand on -/

namespace Config

/-- The rules that are switched on do not leave out the definition. -/
def Keeps (c : Config) (ds : List (Definition m)) (d : Definition m) : Prop :=
  c.rules.importsAcyclic = true → ¬ Circular ds d

instance (c : Config) (ds : List (Definition m)) (d : Definition m) : Decidable (c.Keeps ds d) :=
  inferInstanceAs (Decidable (_ → _))

/-- The definitions that are not left out. -/
def kept (c : Config) (ds : List (Definition m)) : List (Definition m) :=
  ds.filter fun d => decide (c.Keeps ds d)

/-- What reaches the registration when definitions are assembled. -/
def handedOn (c : Config) (descriptions : Descriptions) (ds : List (Definition m)) :
    List (Definition m) :=
  (Rule.runAll c.ruleList (prepare c.schema descriptions ds)).definitions

variable {c : Config} {descriptions : Descriptions} {ds : List (Definition m)}

theorem mem_kept {d : Definition m} : d ∈ c.kept ds ↔ d ∈ ds ∧ c.Keeps ds d := by
  simp [kept]

theorem kept_of_acyclic_on (h : c.rules.importsAcyclic = true) : c.kept ds = survivors ds := by
  unfold kept Keeps survivors
  simp [h]

theorem kept_of_acyclic_off (h : c.rules.importsAcyclic = false) : c.kept ds = ds := by
  unfold kept Keeps
  simp [h]

/-- The rules that are switched on, one after the other. -/
theorem runAll_ruleList (c : Config) (ds : List (Definition m)) :
    Rule.runAll c.ruleList ds =
      { definitions :=
          if c.rules.importsAcyclic then (survivors ds).map (importFields (completeFields ds)) else ds
        diagnostics := (if c.rules.importsExist then missingFindings ds else []) ++
          if c.rules.importsAcyclic then circularFindings ds else [] } := by
  have hexist : Rule.runAll [.importsExist] ds = ⟨ds, missingFindings ds⟩ := rfl
  have hacyclic : Rule.runAll [.importsAcyclic] ds =
      Rule.importsAcyclic.check ⟨ds, []⟩ := rfl
  unfold ruleList
  -- the first rule only adds findings, so the second one sees the same definitions with and without it
  cases c.rules.importsExist <;> cases c.rules.importsAcyclic
  case false.false => rfl
  case true.false => exact hexist.trans (by simp)
  case false.true => exact hacyclic.trans (Rule.check_importsAcyclic _)
  case true.true => exact Rule.runAll_standard ds

/-- The definitions that are kept reach the registration in their order, with the headings they were
given with. -/
theorem headings_handedOn (c : Config) (descriptions : Descriptions) (ds : List (Definition m)) :
    (c.handedOn descriptions ds).map heading = (c.kept ds).map heading := by
  have hprepared := Definition.prepare_headings c.schema descriptions ds
  unfold handedOn
  rw [runAll_ruleList]
  cases hswitch : c.rules.importsAcyclic with
  | false =>
    rw [kept_of_acyclic_off hswitch]
    exact hprepared
  | true =>
    rw [kept_of_acyclic_on hswitch]
    exact Definition.finished_headings c.schema descriptions ds

end Config

/-! ## Exports -/

theorem Definition.exportedIdentifiers_map_heading (builtinSource : String)
    (ds : List (Definition m)) :
    exportedIdentifiers builtinSource (ds.map heading) = exportedIdentifiers builtinSource ds := by
  have hsame : ∀ d : Definition m, d.heading.isExported builtinSource = d.isExported builtinSource :=
    fun _ => rfl
  simp [exportedIdentifiers, List.filter_map, Function.comp_def, hsame]

namespace Registry

theorem exports_assemble (c : Config) (descriptions : Descriptions) (ds : List (Definition m)) :
    (assemble c descriptions ds).exports =
      SortedSet.ofList (Definition.exportedIdentifiers c.schema.builtinSource (c.kept ds)) := by
  have hread : Definition.exportedIdentifiers c.schema.builtinSource (c.handedOn descriptions ds) =
      Definition.exportedIdentifiers c.schema.builtinSource (c.kept ds) :=
    Definition.eq_of_headings (Config.headings_handedOn c descriptions ds)
      (Definition.exportedIdentifiers_map_heading _)
  rw [← hread]
  exact exports_ofDefinitions _ _ _

/-- Exported are the identifiers of the definitions that are kept and are to be exported, registered or
not. -/
theorem mem_exports_assemble {c : Config} {descriptions : Descriptions} {ds : List (Definition m)}
    {x : String} :
    x ∈ (assemble c descriptions ds).exports ↔
      ∃ d ∈ ds, c.Keeps ds d ∧ d.isExported c.schema.builtinSource = true ∧ d.identifier = x := by
  rw [exports_assemble, SortedSet.mem_ofList]
  simp [Definition.exportedIdentifiers, Config.mem_kept, and_assoc]

/-! ## Valid registries -/

/-- Of what the rules of a configuration hand on, the definition `d` at position `p` is registered in the
category. -/
def Registers (c : Config) (descriptions : Descriptions) (ds : List (Definition m))
    (category : Category) (p : Nat) (d : Definition m) : Prop :=
  RegisteredIn c.schema.builtinSource
    (Rule.runAll c.ruleList (prepare c.schema descriptions ds)).diagnostics
    (c.handedOn descriptions ds) category p d

section Valid

variable {c : Config} {descriptions : Descriptions} {ds : List (Definition m)}

theorem diagnostics_assemble (c : Config) (descriptions : Descriptions) (ds : List (Definition m)) :
    (assemble c descriptions ds).diagnostics =
      (Rule.runAll c.ruleList (prepare c.schema descriptions ds)).diagnostics ++
        findingsFrom [] (c.handedOn descriptions ds) :=
  diagnostics_ofDefinitions _ _ _

/-- If the rules find nothing, none of the definitions is left out, -/
theorem kept_of_isValid (h : (assemble c descriptions ds).isValid = true) : c.kept ds = ds := by
  cases hswitch : c.rules.importsAcyclic with
  | false => exact Config.kept_of_acyclic_off hswitch
  | true =>
    rw [isValid_iff, diagnostics_assemble, Config.runAll_ruleList, hswitch] at h
    have hcircular : circularFindings (prepare c.schema descriptions ds) = [] :=
      (List.append_eq_nil_iff.1 (List.append_eq_nil_iff.1 h).1).2
    -- the preparation keeps the headings, and what is circular is a question of headings
    have hprepared := Definition.prepare_headings c.schema descriptions ds
    rw [Definition.eq_of_headings hprepared Definition.circularFindings_map_heading,
      Definition.circularFindings_eq_nil_iff] at hcircular
    rw [Config.kept_of_acyclic_on hswitch, Definition.survivors_eq_self hcircular]

/-- and if the registration finds nothing, none stands in the way of another. -/
theorem compatible_handedOn_of_isValid (h : (assemble c descriptions ds).isValid = true) :
    Compatible (c.handedOn descriptions ds) := by
  rw [isValid_iff, diagnostics_assemble] at h
  have hconflicts := (List.append_eq_nil_iff.1 h).2
  rwa [Definition.findingsFrom_eq_nil_iff List.Pairwise.nil, List.nil_append] at hconflicts

/-- So everything that is handed on is registered, -/
theorem registers_iff_of_isValid (h : (assemble c descriptions ds).isValid = true)
    {category : Category} {p : Nat} {d : Definition m} :
    Registers c descriptions ds category p d ↔
      (c.handedOn descriptions ds)[p]? = some d ∧ d.category = category := by
  unfold Registers
  rw [registeredIn_iff]
  constructor
  · rintro ⟨⟨hd, -⟩, hcategory⟩
    exact ⟨hd, hcategory⟩
  · rintro ⟨hd, hcategory⟩
    exact ⟨(compatible_handedOn_of_isValid h).acceptedAt hd, hcategory⟩

/-- and every definition is, at its position and with its heading. -/
theorem exists_registers_of_isValid (h : (assemble c descriptions ds).isValid = true) {p : Nat}
    {d : Definition m} (hd : ds[p]? = some d) :
    ∃ d', Registers c descriptions ds d.category p d' ∧ d'.heading = d.heading := by
  have hheadings := Config.headings_handedOn c descriptions ds
  rw [kept_of_isValid h] at hheadings
  have hget : ((c.handedOn descriptions ds).map heading)[p]? = some d.heading := by
    rw [hheadings, List.getElem?_map, hd, Option.map_some]
  rw [List.getElem?_map, Option.map_eq_some_iff] at hget
  obtain ⟨d', hd', hheading⟩ := hget
  exact ⟨d', (registers_iff_of_isValid h).2 ⟨hd', Definition.category_of_heading_eq hheading⟩,
    hheading⟩

end Valid

end Registry

end SchemaRegistry
