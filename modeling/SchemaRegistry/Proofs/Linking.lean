import SchemaRegistry.Proofs.Definition.Rearrangement
import SchemaRegistry.Proofs.Service

/-!
# Which subscriptions a mutation field notes

Linking comes before the rules, and the rules carry out the field imports. So what is linked are the
fields that the root types declare: each of them that the mutation declares notes every trigger of a
field that the subscription declares, and still does when it is served
(`declared_root_fields_are_linked`). A field that one of the root types has by import has no part in
this, on neither side (`imported_root_fields_are_not_linked`).

A declared field can be told from an imported one by its identifier, since an import never brings an
identifier that is there already (`mergedFields_extend`).
-/

namespace SchemaRegistry

variable {m : Type → Type}

/-! ## What a linked field notes -/

/-- Among the triggers listed for the field `f` is `t` of the field `s`. -/
def Field.Notes (f s : Field) (t : Trigger) : Prop :=
  ∃ fired, f.attrs.get? Definition.triggersKey = some (.array fired) ∧
    .array [.text s.identifier, t.config] ∈ fired

theorem Field.Notes.mem_items {f s : Field} {t : Trigger} (h : f.Notes s t) :
    ∃ items, (f.attrs.get? Definition.triggersKey).map (·.value) = some (.array items) ∧
      .array [.text s.identifier, t.config.value] ∈ items := by
  obtain ⟨fired, hget, hmem⟩ := h
  refine ⟨fired.map (·.value), ?_, List.mem_map_of_mem hmem⟩
  rw [hget]
  rfl

namespace Definition

theorem mem_firedBy {e : Definition m} {s : Field} (hs : s ∈ e.fields) {t : Trigger}
    (ht : t ∈ s.triggers) {mutationField : String} (hfires : t.firesOn mutationField = true) :
    .array [.text s.identifier, t.config] ∈ firedBy e mutationField := by
  refine List.mem_flatMap.2 ⟨s, hs, ?_⟩
  exact List.mem_map.2 ⟨t, List.mem_filter.2 ⟨ht, hfires⟩, rfl⟩

/-- A linked field notes every trigger it fires. -/
theorem linkField_notes {e : Definition m} {s : Field} (hs : s ∈ e.fields) {t : Trigger}
    (ht : t ∈ s.triggers) {f : Field} (hfires : t.firesOn f.identifier = true) :
    (linkField e f).Notes s t := by
  have hmem := mem_firedBy hs ht hfires
  refine ⟨firedBy e f.identifier, ?_, hmem⟩
  unfold linkField
  split
  · -- a field is left alone only if nothing fires on it
    rename_i hnil
    rw [hnil] at hmem
    exact absurd hmem List.not_mem_nil
  · exact SortedMap.get?_insert_self _ _ _

theorem link_of_isTypeNamed {mutation : String} {d : Definition m} (h : d.isTypeNamed mutation = true)
    (s : Definition m) : link mutation s d = d.withFields (d.fields.map (linkField s)) := by
  rw [link, if_pos h]

/-- Linking keeps the identifiers of the fields and their triggers. -/
theorem exists_of_mem_fields_link {mutation : String} {s d : Definition m} {f : Field}
    (hf : f ∈ (link mutation s d).fields) :
    ∃ g ∈ d.fields, g.identifier = f.identifier ∧ g.triggers = f.triggers := by
  unfold link at hf
  split at hf
  · obtain ⟨g, hg, rfl⟩ := List.mem_map.1 hf
    exact ⟨g, hg, (identifier_linkField s g).symm, (triggers_linkField s g).symm⟩
  · exact ⟨f, hf, rfl, rfl⟩

theorem identifiers_fields_link (mutation : String) (s d : Definition m) :
    (link mutation s d).fields.map (·.identifier) = d.fields.map (·.identifier) := by
  unfold link
  split
  · simp [withFields, Function.comp_def]
  · rfl

/-! ## Root types as they are served -/

variable {schema : SchemaNames} {descriptions : Descriptions} {ds : List (Definition m)}

theorem mem_of_soleType? {identifier : String} {d : Definition m}
    (h : soleType? ds identifier = some d) : d ∈ ds ∧ d.isTypeNamed identifier = true := by
  have hmem : d ∈ ds.filter (isTypeNamed identifier) := by
    rw [soleType?_eq_some_iff.1 h]
    exact List.mem_singleton_self d
  exact List.mem_filter.1 hmem

/-- With both root types in place every definition is linked and described. -/
theorem prepare_of_soleTypes {d e : Definition m} (hd : soleType? ds schema.mutation = some d)
    (he : soleType? ds schema.subscription = some e) :
    prepare schema descriptions ds =
      (ds.map (link schema.mutation e)).map (describe descriptions) := by
  rw [prepare_eq]
  rcases linkTriggers_cases schema.mutation schema.subscription ds with ⟨-, hnone⟩ | ⟨s, hs, -, heq⟩
  · simp [hd, he] at hnone
  · rw [he] at hs
    obtain rfl := Option.some.inj hs
    rw [heq]

/-- A plain type is served with its linked fields in front. -/
theorem WellFormed.serves_linked [Monad m] [LawfulMonad m] (h : WellFormed ds) (schema : SchemaNames)
    (descriptions : Descriptions) {d e t : Definition m} (hd : soleType? ds schema.mutation = some d)
    (he : soleType? ds schema.subscription = some e) (ht : t ∈ ds) (htype : t.isType = true)
    (hplain : t.origin = .built .plain) :
    ∃ a, (Registry.assembleWith schema Rule.standard descriptions ds).Serves t.identifier a ∧
      Field.Extend (link schema.mutation e t).fields a.fields := by
  let p := (link schema.mutation e t).describe descriptions
  have hp : p ∈ prepare schema descriptions ds := by
    rw [prepare_of_soleTypes hd he]
    exact List.mem_map_of_mem (List.mem_map_of_mem ht)
  -- linking and describing leave the heading alone, so it is served where `t` would be
  have hheading : p.heading = t.heading := by
    rw [heading_describe, heading_link]
  have hidentifier : p.identifier = t.identifier := by
    rw [← identifier_heading, hheading, identifier_heading]
  have hcategory : p.isType = t.isType := by
    rw [← isType_heading, hheading, isType_heading]
  have horigin : p.origin = t.origin := by
    rw [← origin_heading, hheading, origin_heading]
  have hserves := h.serves hp (hcategory.trans htype) (horigin.trans hplain)
  rw [hidentifier] at hserves
  refine ⟨_, hserves, ?_⟩
  have hfields : p.fields = (link schema.mutation e t).fields := fields_describe _ _
  rw [← hfields]
  exact mergedFields_extend _ p

end Definition

open Definition (soleType?)

/-- If there is exactly one mutation and exactly one subscription, both built in the plain way, then in a
valid registry every field that the mutation declares is served with a note of every trigger it fires
among those of the fields that the subscription declares. -/
theorem declared_root_fields_are_linked [Monad m] [LawfulMonad m] (schema : SchemaNames)
    (descriptions : Descriptions) (ds : List (Definition m)) {d e : Definition m}
    (hd : soleType? ds schema.mutation = some d) (he : soleType? ds schema.subscription = some e)
    (hdplain : d.origin = .built .plain) (heplain : e.origin = .built .plain)
    (hvalid : (Registry.assembleWith schema Rule.standard descriptions ds).isValid = true) :
    ∃ a b, (Registry.assembleWith schema Rule.standard descriptions ds).Serves schema.mutation a ∧
      (Registry.assembleWith schema Rule.standard descriptions ds).Serves schema.subscription b ∧
      ∀ f ∈ a.fields, f.identifier ∈ d.fields.map (·.identifier) →
        ∀ s ∈ b.fields, s.identifier ∈ e.fields.map (·.identifier) →
          ∀ t ∈ s.triggers, t.firesOn f.identifier = true → f.Notes s t := by
  have hformed := Registry.wellFormed_of_isValid hvalid
  obtain ⟨hdmem, hdname⟩ := Definition.mem_of_soleType? hd
  obtain ⟨hemem, hename⟩ := Definition.mem_of_soleType? he
  obtain ⟨hdtype, hdidentifier⟩ := Definition.isTypeNamed_iff.1 hdname
  obtain ⟨hetype, heidentifier⟩ := Definition.isTypeNamed_iff.1 hename
  obtain ⟨a, ha, haextend⟩ :=
    hformed.serves_linked schema descriptions hd he hdmem hdtype hdplain
  obtain ⟨b, hb, hbextend⟩ :=
    hformed.serves_linked schema descriptions hd he hemem hetype heplain
  rw [hdidentifier] at ha
  rw [heidentifier] at hb
  refine ⟨a, b, ha, hb, ?_⟩
  intro f hf hfown s hs hsown t ht hfires
  -- by their identifiers both fields are linked ones, so they come from declared fields
  rw [← Definition.identifiers_fields_link schema.mutation e] at hfown hsown
  have hflinked := haextend.mem hf (List.mem_map.1 hfown)
  have hslinked := hbextend.mem hs (List.mem_map.1 hsown)
  obtain ⟨g, hg, hidentifier, htriggers⟩ := Definition.exists_of_mem_fields_link hslinked
  rw [Definition.link_of_isTypeNamed hdname] at hflinked
  obtain ⟨f', -, rfl⟩ := List.mem_map.1 hflinked
  rw [Definition.identifier_linkField] at hfires
  rw [← htriggers] at ht
  obtain ⟨fired, hget, hmem⟩ := Definition.linkField_notes hg ht hfires
  refine ⟨fired, hget, ?_⟩
  rwa [← hidentifier]

/-! ## Root types that import -/

/-- A mutation and a subscription with a field of their own and an imported one each. The declared
subscription field is triggered by both mutation fields, the imported one by the declared one. -/
def importingRoots : List (Definition Id) :=
  let field (identifier : String) (mutations : List String) : Field :=
    { identifier, name := identifier,
      triggers := if mutations.isEmpty then [] else [⟨.ofList mutations, .null⟩] }
  let type (identifier : String) (fields : List Field) (targets : List String) : Definition Id :=
    { category := .type, identifier, name := identifier, fields,
      fieldImports := targets.map fun target => { target }, origin := .built .plain }
  [type "mutation" [field "save" []] ["drafts"],
    type "subscription" [field "saved" ["discard", "save"]] ["audits"],
    type "drafts" [field "discard" []] [],
    type "audits" [field "audited" ["save"]] []]

theorem importingRoots_isValid :
    (Registry.assembleWith {} Rule.standard ∅ importingRoots).isValid = true := by cbv

/-- The fields served for the mutation, with what they note. -/
theorem fields_of_serves_mutation {a : Artifact}
    (h : (Registry.assembleWith {} Rule.standard ∅ importingRoots).Serves "mutation" a) :
    a.fields.map (fun f => (f.identifier, (f.attrs.get? Definition.triggersKey).map (·.value))) =
      [("save", some (.array [.array [.text "saved", .null]])), ("discard", none)] := by
  have hlookup : Option.map (fun a : Artifact => a.fields.map fun f =>
      (f.identifier, (f.attrs.get? Definition.triggersKey).map (·.value)))
      (Id.run ((Registry.assembleWith {} Rule.standard ∅ importingRoots).lookup Slot.realize .type
        "mutation")) =
      some [("save", some (.array [.array [.text "saved", .null]])), ("discard", none)] := by cbv
  rw [h.anew] at hlookup
  exact Option.some.inj hlookup

/-- The fields served for the subscription, with what triggers them. -/
theorem fields_of_serves_subscription {b : Artifact}
    (h : (Registry.assembleWith {} Rule.standard ∅ importingRoots).Serves "subscription" b) :
    b.fields.map (fun s => (s.identifier, s.triggers)) =
      [("saved", [⟨.ofList ["discard", "save"], .null⟩]), ("audited", [⟨.ofList ["save"], .null⟩])] := by
  have hlookup : Option.map (fun b : Artifact => b.fields.map fun s => (s.identifier, s.triggers))
      (Id.run ((Registry.assembleWith {} Rule.standard ∅ importingRoots).lookup Slot.realize .type
        "subscription")) =
      some [("saved", [⟨.ofList ["discard", "save"], .null⟩]),
        ("audited", [⟨.ofList ["save"], .null⟩])] := by cbv
  rw [h.anew] at hlookup
  exact Option.some.inj hlookup

/-- Both root types of the example are served. -/
theorem exists_serves_importingRoots :
    ∃ a b, (Registry.assembleWith {} Rule.standard ∅ importingRoots).Serves "mutation" a ∧
      (Registry.assembleWith {} Rule.standard ∅ importingRoots).Serves "subscription" b := by
  have hformed := Registry.wellFormed_of_isValid importingRoots_isValid
  obtain ⟨a, ha, -⟩ := hformed.serves_linked {} ∅ rfl rfl
    (List.mem_of_getElem? (i := 0) rfl) rfl rfl
  obtain ⟨b, hb, -⟩ := hformed.serves_linked {} ∅ rfl rfl
    (List.mem_of_getElem? (i := 1) rfl) rfl rfl
  exact ⟨a, b, ha, hb⟩

/-- The declared mutation field notes the declared subscription field. -/
theorem importingRoots_declared_linked :
    ∃ d e, soleType? importingRoots "mutation" = some d ∧
      soleType? importingRoots "subscription" = some e ∧
      d.origin = .built .plain ∧ e.origin = .built .plain ∧
      (Registry.assembleWith {} Rule.standard ∅ importingRoots).isValid = true ∧
      ∃ a b, (Registry.assembleWith {} Rule.standard ∅ importingRoots).Serves "mutation" a ∧
        (Registry.assembleWith {} Rule.standard ∅ importingRoots).Serves "subscription" b ∧
        ∃ f ∈ a.fields, f.identifier = "save" ∧ ∃ s ∈ b.fields, s.identifier = "saved" ∧
          ∃ t ∈ s.triggers, f.Notes s t := by
  obtain ⟨a, b, ha, hb, hlinked⟩ := declared_root_fields_are_linked {} ∅ importingRoots rfl rfl
    rfl rfl importingRoots_isValid
  refine ⟨_, _, rfl, rfl, rfl, rfl, importingRoots_isValid, a, b, ha, hb, ?_⟩
  obtain ⟨f, _, hfields, hf, -⟩ := List.map_eq_cons_iff.1 (fields_of_serves_mutation ha)
  obtain ⟨s, _, hsfields, hs, -⟩ := List.map_eq_cons_iff.1 (fields_of_serves_subscription hb)
  obtain ⟨hfname, -⟩ := Prod.mk.inj hf
  obtain ⟨hsname, htriggers⟩ := Prod.mk.inj hs
  have hfmem : f ∈ a.fields := by simp [hfields]
  have hsmem : s ∈ b.fields := by simp [hsfields]
  refine ⟨f, hfmem, hfname, s, hsmem, hsname, ⟨.ofList ["discard", "save"], .null⟩, ?_, ?_⟩
  · simp [htriggers]
  · refine hlinked f hfmem ?_ s hsmem ?_ _ ?_ ?_
    · rw [hfname]
      exact List.mem_singleton_self _
    · rw [hsname]
      exact List.mem_singleton_self _
    · simp [htriggers]
    · rw [hfname]
      decide

/-- Imported fields are not linked, although both root types are there, built in the plain way, and
nothing is found: neither does the imported mutation field note the declared subscription field that it
fires, nor the declared mutation field the imported one. -/
theorem imported_root_fields_are_not_linked :
    (∃ d e, soleType? importingRoots "mutation" = some d ∧
      soleType? importingRoots "subscription" = some e ∧
      d.origin = .built .plain ∧ e.origin = .built .plain) ∧
    (Registry.assembleWith {} Rule.standard ∅ importingRoots).isValid = true ∧
    ∃ a b, (Registry.assembleWith {} Rule.standard ∅ importingRoots).Serves "mutation" a ∧
      (Registry.assembleWith {} Rule.standard ∅ importingRoots).Serves "subscription" b ∧
      (∃ f ∈ a.fields, f.identifier = "discard" ∧ ∃ s ∈ b.fields, s.identifier = "saved" ∧
        ∃ t ∈ s.triggers, t.firesOn f.identifier = true ∧ ¬ f.Notes s t) ∧
      ∃ f ∈ a.fields, f.identifier = "save" ∧ ∃ s ∈ b.fields, s.identifier = "audited" ∧
        ∃ t ∈ s.triggers, t.firesOn f.identifier = true ∧ ¬ f.Notes s t := by
  obtain ⟨a, b, ha, hb⟩ := exists_serves_importingRoots
  refine ⟨⟨_, _, rfl, rfl, rfl, rfl⟩, importingRoots_isValid, a, b, ha, hb, ?_⟩
  obtain ⟨save, _, hfields, hsave, hrest⟩ := List.map_eq_cons_iff.1 (fields_of_serves_mutation ha)
  obtain ⟨discard, _, rfl, hdiscard, -⟩ := List.map_eq_cons_iff.1 hrest
  obtain ⟨saved, _, hsfields, hsaved, hsrest⟩ :=
    List.map_eq_cons_iff.1 (fields_of_serves_subscription hb)
  obtain ⟨audited, _, rfl, haudited, -⟩ := List.map_eq_cons_iff.1 hsrest
  obtain ⟨hsaveName, hsaveNotes⟩ := Prod.mk.inj hsave
  obtain ⟨hdiscardName, hdiscardNotes⟩ := Prod.mk.inj hdiscard
  obtain ⟨hsavedName, hsavedTriggers⟩ := Prod.mk.inj hsaved
  obtain ⟨hauditedName, hauditedTriggers⟩ := Prod.mk.inj haudited
  constructor
  · refine ⟨discard, by simp [hfields], hdiscardName, saved, by simp [hsfields], hsavedName,
      ⟨.ofList ["discard", "save"], .null⟩, by simp [hsavedTriggers], ?_, ?_⟩
    · rw [hdiscardName]
      decide
    · -- no list of triggers is there at all
      intro hnotes
      obtain ⟨items, hitems, -⟩ := hnotes.mem_items
      rw [hdiscardNotes] at hitems
      cases hitems
  · refine ⟨save, by simp [hfields], hsaveName, audited, by simp [hsfields], hauditedName,
      ⟨.ofList ["save"], .null⟩, by simp [hauditedTriggers], ?_, ?_⟩
    · rw [hsaveName]
      decide
    · -- the list has the declared subscription field only
      intro hnotes
      obtain ⟨items, hitems, hmem⟩ := hnotes.mem_items
      rw [hsaveNotes] at hitems
      cases hitems
      simp [hauditedName] at hmem

end SchemaRegistry
