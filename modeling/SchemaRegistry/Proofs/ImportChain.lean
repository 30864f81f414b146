import Mathlib
import SchemaRegistry.Proofs.CycleRule

/-!
# Chains of imports

What a type imports may itself be imported, so its fields are spread over chains of imports: from a
definition along one of its imports to the first type with the imported identifier, and so on
(`Definition.ImportChain`). The complete fields of a type are what its chains reach. Every one of them is
declared at the end of a chain none of whose imports excepts it (`reaches_of_mem_mergedFields`, by induction
along the imports), and whatever such a chain reaches is there, by its identifier at least
(`ImportChain.covers`, by induction on the chain).

For the rule on cycles this says which fields its types leave with, whatever order the table of complete
fields is filled in (`importsAcyclic_delivers_chains`). A chain never leads back to the type it starts
from (`ImportChain.identifier_ne`), so what the rule adds to a type are fields of other types, and nothing
but fields is touched (`importsAcyclic_appends_foreign_fields`).
-/

namespace SchemaRegistry

open Relation

variable {m : Type → Type}

namespace Definition

/-- The definition declares a field with this identifier. -/
def Declares (d : Definition m) (field : String) : Prop := ∃ f ∈ d.fields, f.identifier = field

/-- Following `imports` one after the other, each time to the first type in `ds` with the identifier of
the target, leads from `d` to `e`. -/
inductive ImportChain (ds : List (Definition m)) :
    Definition m → List FieldImport → Definition m → Prop where
  | done (d : Definition m) : ImportChain ds d [] d
  | next {d t e : Definition m} {i : FieldImport} {imports : List FieldImport} :
      i ∈ d.fieldImports → ds.find? (isTypeNamed i.target) = some t → ImportChain ds t imports e →
      ImportChain ds d (i :: imports) e

/-- None of the imports excepts the field. -/
def LetsPass (imports : List FieldImport) (field : String) : Prop :=
  ∀ i ∈ imports, field ∉ i.except

/-- The field is declared at the end of a chain that lets it pass. -/
def Reaches (ds : List (Definition m)) (d : Definition m) (f : Field) : Prop :=
  ∃ imports e, ImportChain ds d imports e ∧ LetsPass imports f.identifier ∧ f ∈ e.fields

section Chains

variable {ds : List (Definition m)} {d e t : Definition m} {imports : List FieldImport}

/-! ## What chains reach -/

/-- The first type that survives under the target of an import is imported, and on no cycle. -/
theorem imports_of_find?_survivors (hd : d ∈ ds) (htype : d.isType = true) {i : FieldImport}
    (hi : i ∈ d.fieldImports) (ht : (survivors ds).find? (isTypeNamed i.target) = some t) :
    Imports ds d.identifier i.target ∧ ¬ OnCycle ds i.target := by
  obtain ⟨htmem, hnocycle⟩ := mem_survivors.1 (List.mem_of_find?_eq_some ht)
  have hnamed : t.isTypeNamed i.target = true := List.find?_some ht
  refine ⟨⟨⟨d, hd, isTypeNamed_iff.2 ⟨htype, rfl⟩, i, hi, rfl⟩, t, htmem, hnamed⟩, ?_⟩
  intro hcycle
  obtain ⟨httype, heq⟩ := isTypeNamed_iff.1 hnamed
  rw [← heq] at hcycle
  exact hnocycle ⟨httype, hcycle⟩

/-- Every complete field of a type is reached. -/
theorem reaches_of_mem_mergedFields (hd : d ∈ survivors ds) (htype : d.isType = true) {f : Field}
    (hf : f ∈ mergedFields (completeFields ds) d) : Reaches (survivors ds) d f := by
  -- by induction along the imports, for all types with an identifier at once
  have hall : ∀ u, (∃ d ∈ ds, d.isTypeNamed u = true) → ¬ OnCycle ds u →
      ∀ d ∈ survivors ds, d.isTypeNamed u = true → ∀ f ∈ mergedFields (completeFields ds) d,
        Reaches (survivors ds) d f := by
    refine imports_induction ?_
    intro u _ hbefore d hd hnamed f hf
    obtain ⟨htype, rfl⟩ := isTypeNamed_iff.1 hnamed
    rcases mem_mergedFields hf with hown | ⟨i, hi, offered, hget, hoffered, hexcept⟩
    · exact ⟨[], d, .done d, by simp [LetsPass], hown⟩
    · rw [get?_completeFields, Option.map_eq_some_iff] at hget
      obtain ⟨t, ht, rfl⟩ := hget
      obtain ⟨himports, hnocycle⟩ :=
        imports_of_find?_survivors (mem_survivors.1 hd).1 htype hi ht
      obtain ⟨imports, e, hchain, hpass, hfe⟩ := hbefore i.target himports hnocycle t
        (List.mem_of_find?_eq_some ht) (List.find?_some ht) f hoffered
      exact ⟨i :: imports, e, .next hi ht hchain, List.forall_mem_cons.2 ⟨hexcept, hpass⟩, hfe⟩
  obtain ⟨hmem, hcircular⟩ := mem_survivors.1 hd
  have hnamed : d.isTypeNamed d.identifier = true := isTypeNamed_iff.2 ⟨htype, rfl⟩
  have hnocycle : ¬ OnCycle ds d.identifier := fun hcycle => hcircular ⟨htype, hcycle⟩
  exact hall d.identifier ⟨d, hmem, hnamed⟩ hnocycle d hd hnamed f hf

/-- What is declared at the end of a chain that lets it pass is among the complete fields, by its
identifier at least. -/
theorem ImportChain.covers (h : ImportChain (survivors ds) d imports e) {field : String}
    (hpass : LetsPass imports field) (hdeclares : e.Declares field) :
    ∃ f ∈ mergedFields (completeFields ds) d, f.identifier = field := by
  induction h with
  | done d =>
    obtain ⟨f, hf, heq⟩ := hdeclares
    exact ⟨f, (mergedFields_extend _ d).subset hf, heq⟩
  | @next d t e i imports hi ht _ ih =>
    obtain ⟨hexcept, hrest⟩ := List.forall_mem_cons.1 hpass
    obtain ⟨f, hf, rfl⟩ := ih hrest hdeclares
    have hoffered : (completeFields ds).get? i.target = some (mergedFields (completeFields ds) t) := by
      rw [get?_completeFields, ht, Option.map_some]
    exact mergedFields_covers hi hoffered hf hexcept

/-! ## Where chains lead -/

/-- A chain of one or more imports leads along imports between types to a type that survives. -/
theorem ImportChain.transGen (h : ImportChain (survivors ds) d imports e) (hne : imports ≠ [])
    (hd : d ∈ ds) (htype : d.isType = true) :
    TransGen (Imports ds) d.identifier e.identifier ∧ e ∈ survivors ds ∧ e.isType = true := by
  induction h with
  | done d => exact absurd rfl hne
  | @next d t e i imports hi ht hrest ih =>
    have htmem : t ∈ survivors ds := List.mem_of_find?_eq_some ht
    obtain ⟨httype, htarget⟩ := isTypeNamed_iff.1 (List.find?_some ht)
    have hfirst : TransGen (Imports ds) d.identifier t.identifier := by
      rw [htarget]
      exact .single (imports_of_find?_survivors hd htype hi ht).1
    -- the hypothesis of the induction speaks of the rest only if there is one
    cases hrest with
    | done => exact ⟨hfirst, htmem, httype⟩
    | next hj ht' hrest =>
      obtain ⟨hlater, he⟩ := ih (List.cons_ne_nil _ _) (mem_survivors.1 htmem).1 httype
      exact ⟨hfirst.trans hlater, he⟩

/-- From a type that survives no chain leads back to its identifier. -/
theorem ImportChain.identifier_ne (h : ImportChain (survivors ds) d imports e) (hne : imports ≠ [])
    (hd : d ∈ survivors ds) (htype : d.isType = true) : e.identifier ≠ d.identifier := by
  obtain ⟨hmem, hcircular⟩ := mem_survivors.1 hd
  intro heq
  have hcycle := (h.transGen hne hmem htype).1
  rw [heq] at hcycle
  exact hcircular ⟨htype, hcycle⟩

end Chains

end Definition

open Definition (survivors completeFields ImportChain LetsPass)

/-! ## What the rule delivers -/

/-- The definitions that the rule on cycles keeps leave it in their order. A type leaves it with exactly
the fields, by their identifiers, that it declares itself or that a chain of imports between the kept types
leads to without excepting them. The table of complete fields with which this is done is the one that any
topological order of the types on no cycle gives; the order that the rule finds is one. -/
theorem importsAcyclic_delivers_chains (c : Checked m) :
    List.Forall₂
        (fun d d' : Definition m => d.isType = true → ∀ field, d'.Declares field ↔
          d.Declares field ∨ ∃ imports e, imports ≠ [] ∧
            ImportChain (survivors c.definitions) d imports e ∧ LetsPass imports field ∧
              e.Declares field)
        (survivors c.definitions) (Rule.importsAcyclic.check c).definitions ∧
      ∃ table,
        (Rule.importsAcyclic.check c).definitions =
            (survivors c.definitions).map (importFields table) ∧
          (∃ order, (ImportGraph.ofDefinitions c.definitions).order? = some order ∧
            (ImportGraph.ofDefinitions c.definitions).TopologicalOrder order) ∧
          ∀ order, (ImportGraph.ofDefinitions c.definitions).TopologicalOrder order →
            resolveFields (survivors c.definitions) order = table := by
  rw [Rule.check_importsAcyclic]
  refine ⟨?_, completeFields c.definitions, rfl, ?_, ?_⟩
  · rw [List.forall₂_map_right_iff, List.forall₂_same]
    intro d hd htype field
    rw [importFields_of_isType htype]
    constructor
    · rintro ⟨f, hf, rfl⟩
      obtain ⟨imports, e, hchain, hpass, hfe⟩ :=
        Definition.reaches_of_mem_mergedFields hd htype hf
      cases hchain with
      | done => exact .inl ⟨f, hfe, rfl⟩
      | next hi ht hrest =>
        exact .inr ⟨_, e, List.cons_ne_nil _ _, .next hi ht hrest, hpass, f, hfe, rfl⟩
    · rintro (hown | ⟨imports, e, -, hchain, hpass, hdeclares⟩)
      · exact (ImportChain.done d).covers (by simp [LetsPass]) hown
      · exact hchain.covers hpass hdeclares
  · exact (ImportGraph.proper_ofDefinitions c.definitions).exists_topologicalOrder
  · intro order horder
    exact Definition.eq_completeFields (Definition.get?_resolveFields horder)

/-- A person takes all fields of a contact but the city; a contact takes those of an address. -/
def contacts : List (Definition Id) :=
  [{ category := .type, identifier := "person", name := "Person",
     fields := [{ identifier := "name", name := "name" }],
     fieldImports := [{ target := "contact", except := ["city"] }], origin := .built .plain },
   { category := .type, identifier := "contact", name := "Contact",
     fieldImports := [{ target := "address" }], origin := .built .plain },
   { category := .type, identifier := "address", name := "Address",
     fields := [{ identifier := "street", name := "street" }, { identifier := "city", name := "city" }],
     origin := .built .plain }]

theorem survivors_contacts : survivors contacts = contacts := by cbv

theorem topologicalOrder_contacts :
    (ImportGraph.ofDefinitions contacts).TopologicalOrder ["address", "contact", "person"] := by
  have hnodes : (ImportGraph.ofDefinitions contacts).nodes = ["person", "contact", "address"] := rfl
  have hcyclic : (ImportGraph.ofDefinitions contacts).cyclic = [] := by cbv
  have hedges : (ImportGraph.ofDefinitions contacts).edges =
      [("person", "contact"), ("contact", "address")] := rfl
  refine ⟨by decide, ?_, ?_⟩
  · intro v
    rw [hnodes, hcyclic]
    simp only [List.mem_cons, List.not_mem_nil, or_false, not_false_eq_true, and_true]
    tauto
  · simp only [ImportGraph.Edge, hedges]
    decide

/-- The street comes to the person along two imports, and the order of the three types gives the table
with which they are carried out. -/
theorem contacts_delivered :
    (∃ person others, (Rule.importsAcyclic.check ⟨contacts, []⟩).definitions = person :: others ∧
      person.Declares "street") ∧
      (Rule.importsAcyclic.check ⟨contacts, []⟩).definitions = contacts.map
        (importFields (resolveFields contacts ["address", "contact", "person"])) := by
  obtain ⟨hfields, table, hdefinitions, -, horders⟩ := importsAcyclic_delivers_chains ⟨contacts, []⟩
  have htable := horders _ topologicalOrder_contacts
  simp only [survivors_contacts] at hfields hdefinitions htable
  refine ⟨?_, ?_⟩
  · generalize (Rule.importsAcyclic.check ⟨contacts, []⟩).definitions = output at hfields
    cases hfields with
    | @cons _ person _ others hperson _ =>
      refine ⟨person, others, rfl, (hperson rfl "street").2 (.inr ?_)⟩
      have hpass : LetsPass [{ target := "contact", except := ["city"] }, { target := "address" }]
          "street" := by simp [LetsPass]
      refine ⟨_, contacts[2], List.cons_ne_nil _ _, ?_, hpass,
        { identifier := "street", name := "street" }, ?_, rfl⟩
      · have hcontact : contacts.find? (Definition.isTypeNamed "contact") = some contacts[1] := rfl
        have haddress : contacts.find? (Definition.isTypeNamed "address") = some contacts[2] := rfl
        exact .next List.mem_cons_self hcontact (.next List.mem_cons_self haddress (.done _))
      · exact List.mem_cons_self
  · rw [hdefinitions, htable]

/-! ## What the rule adds -/

/-- Of what it keeps, the rule on cycles touches only types with imports, and of these only the fields.
To their own fields it appends fields with identifiers that are new and distinct, and each of these it
takes as it is from a type that it keeps and that has another identifier. Thus distinct identifiers stay
distinct. -/
theorem importsAcyclic_appends_foreign_fields (c : Checked m) :
    List.Forall₂
      (fun d d' : Definition m =>
        (d.isType = false ∨ d.fieldImports = [] → d' = d) ∧
          d'.withFields [] = d.withFields [] ∧
          (∃ more, d'.fields = d.fields ++ more ∧ (more.map (·.identifier)).Nodup ∧
            (∀ f ∈ more, ∀ g ∈ d.fields, g.identifier ≠ f.identifier) ∧
            ∀ f ∈ more, ∃ e ∈ survivors c.definitions,
              e.isType = true ∧ e.identifier ≠ d.identifier ∧ f ∈ e.fields) ∧
          ((d.fields.map (·.identifier)).Nodup → (d'.fields.map (·.identifier)).Nodup))
      (survivors c.definitions) (Rule.importsAcyclic.check c).definitions := by
  rw [Rule.check_importsAcyclic, List.forall₂_map_right_iff, List.forall₂_same]
  intro d hd
  refine ⟨fun h => importFields_of_unaffected h _, withFields_importFields _ d [], ?_⟩
  cases htype : d.isType with
  | false =>
    rw [importFields_of_unaffected (.inl htype)]
    exact ⟨⟨[], (List.append_nil _).symm, .nil, by simp, by simp⟩, id⟩
  | true =>
    obtain ⟨more, hmerged, hfresh⟩ := mergedFields_fresh (completeFields c.definitions) d
    rw [importFields_of_isType htype, hmerged]
    refine ⟨⟨more, rfl, hfresh.nodup, hfresh.apart, ?_⟩, hfresh.nodup_append⟩
    intro f hf
    have hcomplete : f ∈ mergedFields (completeFields c.definitions) d := by
      rw [hmerged]
      exact List.mem_append_right _ hf
    obtain ⟨imports, e, hchain, -, hfe⟩ := Definition.reaches_of_mem_mergedFields hd htype hcomplete
    -- on the empty chain the field would be one of the type's own
    have hne : imports ≠ [] := by
      rintro rfl
      cases hchain
      exact hfresh.apart f hf f hfe rfl
    obtain ⟨-, he, hetype⟩ := hchain.transGen hne (Definition.mem_survivors.1 hd).1 htype
    exact ⟨e, he, hetype, hchain.identifier_ne hne hd htype, hfe⟩

/-- What the person gets beside the name are fields of the contact and the address, none of them twice. -/
theorem contacts_append : ∃ person others more,
    (Rule.importsAcyclic.check ⟨contacts, []⟩).definitions = person :: others ∧
      person.fields = { identifier := "name", name := "name" } :: more ∧
      (person.fields.map (·.identifier)).Nodup ∧
      ∀ f ∈ more, ∃ e ∈ contacts, e.identifier ≠ "person" ∧ f ∈ e.fields := by
  have happends := importsAcyclic_appends_foreign_fields ⟨contacts, []⟩
  simp only [survivors_contacts] at happends
  generalize (Rule.importsAcyclic.check ⟨contacts, []⟩).definitions = output at happends
  cases happends with
  | @cons _ person _ others hperson _ =>
    obtain ⟨-, -, ⟨more, hfields, -, -, hforeign⟩, hdistinct⟩ := hperson
    refine ⟨person, others, more, rfl, hfields, hdistinct (List.nodup_singleton _), ?_⟩
    intro f hf
    obtain ⟨e, he, -, hother, hfe⟩ := hforeign f hf
    exact ⟨e, he, hother, hfe⟩

end SchemaRegistry
