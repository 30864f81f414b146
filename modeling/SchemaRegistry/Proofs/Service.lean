import Mathlib
import SchemaRegistry.Registry.Lookup
import SchemaRegistry.Proofs.Validity

/-!
# What a valid registry serves

In a valid registry every type that is built in the plain way is served as it was defined
(`valid_assembly_serves_definitions`): with the description written back to it, and with the fields it
has after linking, followed by those it imports. The imported fields are the ones that the same registry
serves for the imported types. This is one equation for all types together, so imports reach through to
any depth.

Three things come together. The definitions are well-formed, so all of them are registered, each under
its own identifier. Under it stands the definition with its complete fields. And the table of complete
fields solves the same equation that is claimed of the answers.
-/

namespace SchemaRegistry

variable {m : Type → Type}

/-! ## Answers -/

/-- What is built in the plain way is there. -/
theorem Slot.realize_of_plain [Monad m] [LawfulMonad m] {d : Definition m}
    (hplain : d.origin = .built .plain) :
    (Slot.ofDefinition d).producer.realize = pure (some (.ofDeclaration d.toDeclaration)) := by
  simp [Slot.ofDefinition, Producer.ofDefinition, hplain, Producer.realize, Builder.plain]

namespace Registry

theorem lookup_of_find? {n : Type → Type} [Monad n] {r : Registry m} {category : Category}
    {identifier : String} {slot : Slot m} (h : (r.index category).find? identifier = some slot)
    (realize : Realization m n) :
    r.lookup realize category identifier = realize category slot := by
  simp only [lookup, Index.resolve?, h]

variable [Monad m]

/-- The registry answers with this artifact under the identifier of a type. -/
structure Serves (r : Registry m) (identifier : String) (a : Artifact) : Prop where
  /-- It does whenever the artifact is obtained anew. -/
  anew : r.lookup Slot.realize .type identifier = pure (some a)
  /-- It does if answers are kept, and keeps this one. -/
  once : ∀ cache : Cache, cache.get? .type identifier = none →
    (r.lookup Slot.realizeOnce .type identifier).run cache =
      pure (some a, cache.insert .type identifier (some a))

/-- A registered type that is built in the plain way is served. -/
theorem Holds.serves [LawfulMonad m] {r : Registry m} {held : List (Definition m)} (h : r.Holds held)
    (hcompatible : Definition.Compatible held) {d : Definition m} (hd : d ∈ held)
    (htype : d.isType = true) (hplain : d.origin = .built .plain) :
    r.Serves d.identifier (.ofDeclaration d.toDeclaration) := by
  have hcategory : d.category = .type := Definition.isType_iff.1 htype
  have hslot := h.find?_of_mem hcompatible hd
  rw [hcategory] at hslot
  have hrealize := Slot.realize_of_plain hplain
  constructor
  · rw [lookup_of_find? hslot]
    exact hrealize
  · intro cache hcache
    rw [lookup_of_find? hslot]
    simp [Slot.realizeOnce, hcache, hrealize]

end Registry

/-! ## Definitions on their way to the registration -/

namespace Definition

variable {schema : SchemaNames} {descriptions : Descriptions} {ds : List (Definition m)}

/-- Linking changes fields only. -/
theorem exists_linked {k : Nat} {d : Definition m} (hd : ds[k]? = some d)
    (mutation subscription : String) :
    ∃ own, (linkTriggers mutation subscription ds)[k]? = some (d.withFields own) := by
  rcases linkTriggers_cases mutation subscription ds with ⟨heq, -⟩ | ⟨s, -, -, heq⟩
  · exact ⟨d.fields, by rw [heq, hd]; rfl⟩
  · rw [heq, List.getElem?_map, hd, Option.map_some]
    unfold link
    split
    · exact ⟨_, rfl⟩
    · exact ⟨d.fields, rfl⟩

/-- Up to the rules a definition gets the description that belongs to it and the fields that linking gives
it. -/
theorem exists_prepared {k : Nat} {d : Definition m} (hd : ds[k]? = some d) (schema : SchemaNames)
    (descriptions : Descriptions) :
    ∃ own, (linkTriggers schema.mutation schema.subscription ds)[k]? = some (d.withFields own) ∧
      { d with
        description := (descriptions.get? d.identifier).or d.description
        fields := own } ∈ prepare schema descriptions ds := by
  obtain ⟨own, hlinked⟩ := exists_linked hd schema.mutation schema.subscription
  refine ⟨own, hlinked, ?_⟩
  have hmem := List.mem_map_of_mem (f := describe descriptions) (List.mem_of_getElem? hlinked)
  rwa [← prepare_eq, describe_eq] at hmem

namespace WellFormed

/-- No definition is left out. -/
theorem survivors_prepare (h : WellFormed ds) :
    survivors (prepare schema descriptions ds) = prepare schema descriptions ds := by
  have hcycle : OnCycle (prepare schema descriptions ds) = OnCycle ds :=
    eq_of_headings (prepare_headings schema descriptions ds) onCycle_map_heading
  refine survivors_eq_self ?_
  rw [hcycle]
  exact h.acyclic

theorem compatible_prepare (h : WellFormed ds) : Compatible (prepare schema descriptions ds) :=
  h.compatible.of_headings (prepare_headings schema descriptions ds)

/-- The complete fields of an identifier are those of the type it is from. -/
theorem get?_completeFields (h : WellFormed ds) {p : Definition m}
    (hp : p ∈ prepare schema descriptions ds) (htype : p.isType = true) :
    (completeFields (prepare schema descriptions ds)).get? p.identifier =
      some (mergedFields (completeFields (prepare schema descriptions ds)) p) := by
  have hcategory : p.category = .type := isType_iff.1 htype
  have hfind := h.compatible_prepare.find?_of_mem hp
  rw [hcategory, ← find?_isTypeNamed] at hfind
  rw [Definition.get?_completeFields, h.survivors_prepare, hfind, Option.map_some]

/-- A plain type is served with its complete fields. -/
theorem serves [Monad m] [LawfulMonad m] (h : WellFormed ds) {p : Definition m}
    (hp : p ∈ prepare schema descriptions ds) (htype : p.isType = true)
    (hplain : p.origin = .built .plain) :
    (Registry.assembleWith schema Rule.standard descriptions ds).Serves p.identifier
      (.ofDeclaration (p.withFields
        (mergedFields (completeFields (prepare schema descriptions ds)) p)).toDeclaration) := by
  -- nothing is refused, so the definition is among those the registry holds
  have hholds := Registry.assembleWith_holds_of_compatible h.compatible schema descriptions
  have hcompatible := h.compatible.finished schema descriptions
  have hmem : p.withFields (mergedFields (completeFields (prepare schema descriptions ds)) p) ∈
      finished schema descriptions ds := by
    rw [finished, h.survivors_prepare, ← importFields_of_isType htype]
    exact List.mem_map_of_mem hp
  exact hholds.serves hcompatible hmem htype hplain

/-- What the table has for the identifier of a plain type is what the registry serves under it. -/
theorem offers [Monad m] [LawfulMonad m] (h : WellFormed ds) (schema : SchemaNames)
    (descriptions : Descriptions) {t : Definition m} (ht : t ∈ ds) (htype : t.isType = true)
    (hplain : t.origin = .built .plain) :
    ∃ offered, (completeFields (prepare schema descriptions ds)).get? t.identifier = some offered ∧
      ∃ b, (Registry.assembleWith schema Rule.standard descriptions ds).Serves t.identifier b ∧
        b.fields = offered := by
  obtain ⟨k, hk⟩ := List.getElem?_of_mem ht
  obtain ⟨own, -, hp⟩ := exists_prepared hk schema descriptions
  have hfields := h.get?_completeFields hp htype
  have hserves := h.serves hp htype hplain
  exact ⟨_, hfields, _, hserves, rfl⟩

end WellFormed

/-! ## The equation of the answers -/

/-- The artifact says what the definition says: it is `d` with the description that belongs to it, and
with the fields `own` followed by those that `r` serves for its imports. -/
structure Described [Monad m] (r : Registry m) (descriptions : Descriptions) (own : List Field)
    (d : Definition m) (a : Artifact) : Prop where
  category : a.category = d.category
  identifier : a.identifier = d.identifier
  name : a.name = d.name
  description : a.description = (descriptions.get? d.identifier).or d.description
  interfaces : a.interfaces = d.interfaces
  attrs : a.attrs = d.attrs
  fields : Field.Gathers (fun target offered => ∃ b, r.Serves target b ∧ b.fields = offered)
    own d.fieldImports a.fields

end Definition

open Definition (linkTriggers Described)

/-- Every type of a valid registry that is built in the plain way and imports from such types only is
served as it was defined, and its imports are carried out on what is served for their targets. -/
theorem valid_assembly_serves_definitions [Monad m] [LawfulMonad m] (schema : SchemaNames)
    (descriptions : Descriptions) {ds : List (Definition m)}
    (hvalid : (Registry.assembleWith schema Rule.standard descriptions ds).isValid = true) {k : Nat}
    {d : Definition m} (hd : ds[k]? = some d) (htype : d.isType = true)
    (hplain : d.origin = .built .plain)
    (himports : ∀ i ∈ d.fieldImports,
      ∃ t ∈ ds, t.isType = true ∧ t.identifier = i.target ∧ t.origin = .built .plain) :
    ∃ a own, (Registry.assembleWith schema Rule.standard descriptions ds).Serves d.identifier a ∧
      (linkTriggers schema.mutation schema.subscription ds)[k]? = some (d.withFields own) ∧
      Described (Registry.assembleWith schema Rule.standard descriptions ds) descriptions own d a := by
  have hformed := Registry.wellFormed_of_isValid hvalid
  obtain ⟨own, hlinked, hp⟩ := Definition.exists_prepared hd schema descriptions
  have hserves := hformed.serves hp htype hplain
  refine ⟨_, own, hserves, hlinked, ?_⟩
  constructor
  case fields =>
    -- the fields were merged from the table, and what the table has is what is served
    refine Field.gathers_foldl_takeImport ?_ own
    intro i hi
    obtain ⟨t, ht, httype, htarget, htplain⟩ := himports i hi
    rw [← htarget]
    exact hformed.offers schema descriptions ht httype htplain
  all_goals rfl

/-- Three types. The first one imports from the last one, which imports from the one between them. -/
def importChain : List (Definition Id) :=
  let field (identifier : String) : Field := { identifier, name := identifier }
  let type (identifier : String) (fields : List Field) (fieldImports : List FieldImport) :
      Definition Id :=
    { category := .type, identifier, name := identifier, fields, fieldImports, origin := .built .plain }
  [type "top" [field "title"] [{ target := "middle", except := ["secret"] }],
    type "base" [field "id", field "title", field "secret"] [],
    type "middle" [field "size"] [{ target := "base" }]]

/-- The first type of the chain is served with fields of all three, without the excepted one. -/
theorem importChain_served :
    (Registry.assembleWith {} Rule.standard (.insert ∅ "top" "first") importChain).isValid = true ∧
      ∃ a, (Registry.assembleWith {} Rule.standard (.insert ∅ "top" "first") importChain).Serves
          "top" a ∧
        a.description = some "first" ∧ a.fields.map (·.identifier) = ["title", "size", "id"] := by
  have hvalid : (Registry.assembleWith {} Rule.standard (.insert ∅ "top" "first")
      importChain).isValid = true := by cbv
  have himports : ∀ i ∈ [({ target := "middle", except := ["secret"] } : FieldImport)],
      ∃ t ∈ importChain, t.isType = true ∧ t.identifier = i.target ∧ t.origin = .built .plain := by
    intro i hi
    obtain rfl := List.mem_singleton.1 hi
    exact ⟨_, List.mem_of_getElem? (i := 2) rfl, rfl, rfl, rfl⟩
  obtain ⟨a, own, hserves, -, hdescribed⟩ :=
    valid_assembly_serves_definitions {} (.insert ∅ "top" "first") hvalid (k := 0) rfl rfl rfl himports
  refine ⟨hvalid, a, hserves, hdescribed.description, ?_⟩
  have hfields : Option.map (fun a : Artifact => a.fields.map (·.identifier))
      (Id.run ((Registry.assembleWith {} Rule.standard (.insert ∅ "top" "first")
        importChain).lookup Slot.realize .type "top")) = some ["title", "size", "id"] := by cbv
  rw [hserves.anew] at hfields
  exact Option.some.inj hfields

end SchemaRegistry
