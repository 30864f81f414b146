import SchemaRegistry.Registry.Lookup
import SchemaRegistry.Proofs.Definition.Selection
import SchemaRegistry.Proofs.Registry.Notes

/-!
# Types and directives are separate

Types and directives are declared in one list and pass through an assembly together. Nothing that is
declared of one category shows in the other: the types of a registry, the answers under their keys and
the interfaces they implement depend on the declared types alone, the directives on the declared
directives alone, and what is exported is what each of them exports by itself
(`categories_do_not_interfere`). It makes no difference if a directive has the identifier or the name of
a type, of a root type even, or wants to import fields.

The index of a category is the one that the definitions of the category have by themselves
(`Registry.index_assembleWith_filter_category`), so two lists with the same definitions of a category
lead to one and the same index.
-/

namespace SchemaRegistry

variable {m : Type → Type}

namespace Registry

/-! ## The definitions of a category by themselves -/

/-- The other category leaves no trace in an index. -/
theorem index_assembleWith_filter_category (schema : SchemaNames) (descriptions : Descriptions)
    (ds : List (Definition m)) (category : Category) :
    (assembleWith schema Rule.standard descriptions ds).index category =
      (assembleWith schema Rule.standard descriptions
        (ds.filter (·.category = category))).index category := by
  have hselected : ∀ es : List (Definition m),
      (Definition.accepted (Definition.finished schema descriptions es)).filter
          (·.category = category) =
        Definition.accepted (Definition.finished schema descriptions
          (es.filter (·.category = category))) := by
    intro es
    rw [Definition.accepted_filter_category, Definition.finished_filter_category]
  rw [assembleWith_holds schema descriptions ds category, assembleWith_holds schema descriptions _ category,
    hselected, hselected, List.filter_filter]
  simp only [Bool.and_self]

/-- Directives implement nothing. -/
theorem implementors_assembleWith_filter_types (schema : SchemaNames) (descriptions : Descriptions)
    (ds : List (Definition m)) :
    (assembleWith schema Rule.standard descriptions ds).implementors =
      (assembleWith schema Rule.standard descriptions
        (ds.filter (·.category = .type))).implementors := by
  rw [assembleWith_standard, assembleWith_standard, ofDefinitions, ofDefinitions,
    implementors_foldl_register, implementors_foldl_register, ← Definition.finished_filter_category,
    declaredInterfaces_filter_types]

theorem mem_exports_assembleWith_filter_category {schema : SchemaNames} {descriptions : Descriptions}
    {ds : List (Definition m)} {category : Category} {x : String} :
    x ∈ (assembleWith schema Rule.standard descriptions (ds.filter (·.category = category))).exports ↔
      ∃ d ∈ Definition.finished schema descriptions ds, d.category = category ∧
        d.isExported schema.builtinSource = true ∧ d.identifier = x := by
  rw [assembleWith_standard, mem_exports_ofDefinitions, ← Definition.finished_filter_category]
  simp [and_assoc]

theorem mem_exports_assembleWith {schema : SchemaNames} {descriptions : Descriptions}
    {ds : List (Definition m)} {x : String} :
    x ∈ (assembleWith schema Rule.standard descriptions ds).exports ↔
      x ∈ (assembleWith schema Rule.standard descriptions
        (ds.filter (·.category = .type))).exports ∨
      x ∈ (assembleWith schema Rule.standard descriptions
        (ds.filter (·.category = .directive))).exports := by
  rw [assembleWith_standard, mem_exports_ofDefinitions, mem_exports_assembleWith_filter_category,
    mem_exports_assembleWith_filter_category]
  constructor
  · rintro ⟨d, hd, hexported⟩
    cases hcategory : d.category with
    | type => exact .inl ⟨d, hd, hcategory, hexported⟩
    | directive => exact .inr ⟨d, hd, hcategory, hexported⟩
  · rintro (⟨d, hd, -, hexported⟩ | ⟨d, hd, -, hexported⟩)
    · exact ⟨d, hd, hexported⟩
    · exact ⟨d, hd, hexported⟩

/-! ## Two registries -/

/-- Whoever asks for one category only cannot tell the registries apart. -/
structure AgreeOn (r r' : Registry m) (category : Category) : Prop where
  names : (r.index category).names = (r'.index category).names
  /-- The order of registration is the same, -/
  order : r.identifiers category = r'.identifiers category
  /-- and so is the answer under every key, in whatever way slots are realized. -/
  lookup : ∀ (key : String) (n : Type → Type) [Monad n] (realize : Realization m n),
    r.lookup realize category key = r'.lookup realize category key

theorem agreeOn_of_index_eq {r r' : Registry m} {category : Category}
    (h : r.index category = r'.index category) : r.AgreeOn r' category := by
  constructor
  case names => rw [h]
  case order => rw [identifiers, h, ← identifiers]
  case lookup =>
    intro key n _ realize
    unfold lookup
    rw [h]

theorem assembleWith_agreeOn {ds ds' : List (Definition m)} {category : Category}
    (h : ds.filter (·.category = category) = ds'.filter (·.category = category))
    (schema : SchemaNames) (descriptions : Descriptions) :
    (assembleWith schema Rule.standard descriptions ds).AgreeOn
      (assembleWith schema Rule.standard descriptions ds') category := by
  apply agreeOn_of_index_eq
  rw [index_assembleWith_filter_category, h, ← index_assembleWith_filter_category]

end Registry

/-- Definitions with the same types among them, in the same order, lead to registries that agree on types
and their interfaces, whatever directives there are and wherever they stand; the same holds with
directives and types exchanged. Exported is what the types export by themselves and what the directives
export by themselves. -/
theorem categories_do_not_interfere (schema : SchemaNames) (descriptions : Descriptions) :
    (∀ ds ds' : List (Definition m),
      ds.filter (·.category = .type) = ds'.filter (·.category = .type) →
        (Registry.assembleWith schema Rule.standard descriptions ds).AgreeOn
          (Registry.assembleWith schema Rule.standard descriptions ds') .type ∧
        (Registry.assembleWith schema Rule.standard descriptions ds).implementors =
          (Registry.assembleWith schema Rule.standard descriptions ds').implementors) ∧
    (∀ ds ds' : List (Definition m),
      ds.filter (·.category = .directive) = ds'.filter (·.category = .directive) →
        (Registry.assembleWith schema Rule.standard descriptions ds).AgreeOn
          (Registry.assembleWith schema Rule.standard descriptions ds') .directive) ∧
    ∀ (ds : List (Definition m)) (x : String),
      x ∈ (Registry.assembleWith schema Rule.standard descriptions ds).exports ↔
        x ∈ (Registry.assembleWith schema Rule.standard descriptions
          (ds.filter (·.category = .type))).exports ∨
        x ∈ (Registry.assembleWith schema Rule.standard descriptions
          (ds.filter (·.category = .directive))).exports := by
  refine ⟨?_, ?_, ?_⟩
  · intro ds ds' hsame
    refine ⟨Registry.assembleWith_agreeOn hsame schema descriptions, ?_⟩
    rw [Registry.implementors_assembleWith_filter_types, hsame,
      ← Registry.implementors_assembleWith_filter_types]
  · intro ds ds' hsame
    exact Registry.assembleWith_agreeOn hsame schema descriptions
  · intro ds x
    exact Registry.mem_exports_assembleWith

/-- A mutation that imports a field, the subscription it is linked to, and the type it imports from. -/
def rootTypes : List (Definition Id) :=
  let field (identifier : String) : Field := { identifier, name := identifier }
  let type (identifier name : String) (fields : List Field) (targets : List String) : Definition Id :=
    { category := .type, identifier, name, fields, interfaces := ["node"],
      fieldImports := targets.map fun target => { target }, origin := .built .plain }
  [type "mutation" "Mutation" [field "save"] ["base"],
    type "subscription" "Subscription"
      [{ field "saved" with triggers := [⟨.ofList ["save"], .null⟩] }] [],
    type "base" "Base" [field "id"] []]

/-- Directives with the identifiers and names of these types, which import from them and from nowhere. -/
def impostors : List (Definition Id) :=
  let directive (identifier name : String) (targets : List String) : Definition Id :=
    { category := .directive, identifier, name, interfaces := ["node"],
      fieldImports := targets.map fun target => { target }, origin := .built .plain }
  [directive "mutation" "Mutation" ["subscription", "ghost"], directive "base" "Mutation" ["mutation"],
    directive "subscription" "Base" []]

/-- The types are the same without the impostors, and the impostors are the same without the types. -/
theorem impostors_do_not_interfere :
    ((impostors ++ rootTypes).filter (·.category = .type) = rootTypes.filter (·.category = .type) ∧
      (Registry.assembleWith {} Rule.standard ∅ (impostors ++ rootTypes)).AgreeOn
        (Registry.assembleWith {} Rule.standard ∅ rootTypes) .type) ∧
    (impostors ++ rootTypes).filter (·.category = .directive) =
        impostors.filter (·.category = .directive) ∧
      (Registry.assembleWith {} Rule.standard ∅ (impostors ++ rootTypes)).AgreeOn
        (Registry.assembleWith {} Rule.standard ∅ impostors) .directive := by
  have htypes : (impostors ++ rootTypes).filter (·.category = .type) =
      rootTypes.filter (·.category = .type) := rfl
  have hdirectives : (impostors ++ rootTypes).filter (·.category = .directive) =
      impostors.filter (·.category = .directive) := rfl
  obtain ⟨hfirst, hsecond, -⟩ := categories_do_not_interfere (m := Id) {} ∅
  exact ⟨⟨htypes, (hfirst _ _ htypes).1⟩, hdirectives, hsecond _ _ hdirectives⟩

end SchemaRegistry
