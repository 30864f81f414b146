import SchemaRegistry.Proofs.Registry.Uniqueness
import SchemaRegistry.Proofs.Service

/-!
# Which type an import is from

Two passes choose among the types with one identifier. The rule that carries out the field imports takes
the first one it keeps; it comes before the registration and does not ask what will be registered. The
registration takes the first one whose name is free. So an import is from the type that is registered if
and only if the name of the first one is free, as it always is in a valid registry; then the importing
type has every field that the registry serves for the imported one
(`imports_are_from_registered_type`). If the name is taken, a later type is registered, and what is
imported are fields of a type that is not served (`imports_can_be_from_refused_type`).
-/

namespace SchemaRegistry

variable {m : Type → Type}

/-! ## The first type with an identifier -/

namespace Definition

variable {ds : List (Definition m)} {identifier : String} {p q : Nat} {d e : Definition m}

/-- To look for a type with the identifier is to look for the first position where there is one. -/
theorem exists_firstAt (h : ds.find? (isTypeNamed identifier) = some d) :
    ∃ p, FirstAt ds identifier p d := by
  obtain ⟨hnamed, p, hp, hget, hbefore⟩ := List.find?_eq_some_iff_getElem.1 h
  refine ⟨p, ⟨List.getElem?_eq_some_iff.2 ⟨hp, hget⟩, hnamed⟩, ?_⟩
  rintro q hq e ⟨he, henamed⟩
  obtain ⟨hlt, rfl⟩ := List.getElem?_eq_some_iff.1 he
  have hother := hbefore q hq
  rw [henamed] at hother
  cases hother

theorem FirstAt.unique (h : FirstAt ds identifier p d) (h' : FirstAt ds identifier q e) :
    p = q ∧ d = e := by
  have hpq : p = q := by
    rcases Nat.lt_trichotomy p q with hlt | heq | hlt
    · exact absurd h.occurs (h'.first p hlt d)
    · exact heq
    · exact absurd h'.occurs (h.first q hlt e)
  subst hpq
  exact ⟨rfl, Option.some.inj (h.occurs.1.symm.trans h'.occurs.1)⟩

/-- Carrying out imports leaves types with an identifier where they are. -/
theorem occursAt_map_importFields {table : SortedMap (List Field)} :
    OccursAt (ds.map (importFields table)) identifier p d ↔
      ∃ e, OccursAt ds identifier p e ∧ importFields table e = d := by
  rw [OccursAt, List.getElem?_map, Option.map_eq_some_iff]
  constructor
  · rintro ⟨⟨e, he, rfl⟩, hd⟩
    rw [isTypeNamed_importFields] at hd
    exact ⟨e, ⟨he, hd⟩, rfl⟩
  · rintro ⟨e, ⟨he, hd⟩, rfl⟩
    rw [← isTypeNamed_importFields table identifier e] at hd
    exact ⟨⟨e, he, rfl⟩, hd⟩

end Definition

open Definition (prepare survivors completeFields finished FirstAt OccursAt AcceptedAt)

/-! ## The target of imports -/

/-- Imports from `b` are from the type `d`, which the rules hand on at position `p`. -/
structure ImportTarget (schema : SchemaNames) (descriptions : Descriptions)
    (ds : List (Definition m)) (b : String) (p : Nat) (d : Definition m) : Prop where
  /-- It is made of the first type with this identifier that is on no cycle, -/
  first : ∃ e, FirstAt (survivors (prepare schema descriptions ds)) b p e ∧
    d = e.withFields d.fields
  /-- it is handed on at the same position, -/
  handedOn : OccursAt (Rule.runAll Rule.standard (prepare schema descriptions ds)).definitions b p d
  /-- and its fields are the ones that the types importing from `b` are offered. -/
  offered : (completeFields (prepare schema descriptions ds)).get? b = some d.fields

/-- Of what the rules hand on, the type `d` at position `p` is registered. -/
def Registry.RegistersType (schema : SchemaNames) (descriptions : Descriptions)
    (ds : List (Definition m)) (p : Nat) (d : Definition m) : Prop :=
  let checked := Rule.runAll Rule.standard (prepare schema descriptions ds)
  RegisteredIn schema.builtinSource checked.diagnostics checked.definitions .type p d

/-- Of what the rules hand on, no type before position `p` with the name of `d` is registered. -/
def Registry.KeepsNameFree (schema : SchemaNames) (descriptions : Descriptions)
    (ds : List (Definition m)) (p : Nat) (d : Definition m) : Prop :=
  ∀ q < p, ∀ e, RegistersType schema descriptions ds q e → e.name ≠ d.name

section Assembly

variable {schema : SchemaNames} {descriptions : Descriptions} {ds : List (Definition m)} {b : String}
  {p q : Nat} {d e : Definition m}

theorem definitions_runAll_standard :
    (Rule.runAll Rule.standard (prepare schema descriptions ds)).definitions =
      finished schema descriptions ds := by
  rw [Rule.runAll_standard]
  rfl

theorem Registry.registersType_iff :
    RegistersType schema descriptions ds p d ↔
      AcceptedAt (finished schema descriptions ds) p d ∧ d.category = .type := by
  rw [RegistersType, registeredIn_iff, definitions_runAll_standard]

theorem Registry.registers_of_names_get? {name : String}
    (h : (assembleWith schema Rule.standard descriptions ds).types.names.get? b = some name) :
    ∃ q e, RegistersType schema descriptions ds q e ∧
      OccursAt (finished schema descriptions ds) b q e := by
  rw [assembleWith_standard, get?_names_ofDefinitions_iff] at h
  obtain ⟨q, e, haccepted, hnamed, -⟩ := h
  have hcategory : e.category = .type :=
    Definition.isType_iff.1 (Definition.isTypeNamed_iff.1 hnamed).1
  exact ⟨q, e, registersType_iff.2 ⟨haccepted, hcategory⟩, haccepted.1, hnamed⟩

/-- Where a type with the identifier is handed on, imports from it have a target. -/
theorem exists_importTarget (h : OccursAt (finished schema descriptions ds) b q e) :
    ∃ p d, ImportTarget schema descriptions ds b p d := by
  -- the fields that are offered are those of the first survivor with the identifier
  obtain ⟨e', ⟨he', hnamed⟩, -⟩ := Definition.occursAt_map_importFields.1 h
  have hfound : ((survivors (prepare schema descriptions ds)).find?
      (Definition.isTypeNamed b)).isSome = true :=
    List.find?_isSome.2 ⟨e', List.mem_of_getElem? he', hnamed⟩
  obtain ⟨t, ht⟩ := Option.isSome_iff_exists.1 hfound
  obtain ⟨p, hfirst⟩ := Definition.exists_firstAt ht
  have htype : t.isType = true := (Definition.isTypeNamed_iff.1 hfirst.occurs.2).1
  have hfields := importFields_of_isType htype (completeFields (prepare schema descriptions ds))
  refine ⟨p, importFields (completeFields (prepare schema descriptions ds)) t, ⟨t, hfirst, ?_⟩, ?_, ?_⟩
  · rw [hfields]
    rfl
  · rw [definitions_runAll_standard]
    exact Definition.occursAt_map_importFields.2 ⟨t, hfirst.occurs, rfl⟩
  · rw [Definition.get?_completeFields, ht, hfields]
    rfl

namespace ImportTarget

/-- No type with the identifier is handed on before the target. -/
theorem firstAt (h : ImportTarget schema descriptions ds b p d) :
    FirstAt (finished schema descriptions ds) b p d := by
  obtain ⟨t, ht, -⟩ := h.first
  have hhanded := h.handedOn
  rw [definitions_runAll_standard] at hhanded
  refine ⟨hhanded, ?_⟩
  intro q hq e he
  obtain ⟨e', he', -⟩ := Definition.occursAt_map_importFields.1 he
  exact ht.first q hq e' he'

theorem isType (h : ImportTarget schema descriptions ds b p d) : d.isType = true :=
  (Definition.isTypeNamed_iff.1 h.handedOn.2).1

/-- The target is registered if and only if its name is free. -/
theorem registersType_iff_keepsNameFree (h : ImportTarget schema descriptions ds b p d) :
    Registry.RegistersType schema descriptions ds p d ↔
      Registry.KeepsNameFree schema descriptions ds p d := by
  let found := (Rule.runAll Rule.standard (prepare schema descriptions ds)).diagnostics
  have hcategory : d.category = .type := Definition.isType_iff.1 h.isType
  have hfree : Registry.KeepsNameFree schema descriptions ds p d ↔
      Registry.NameFreeAt schema.builtinSource found (finished schema descriptions ds) p d := by
    simp only [Registry.KeepsNameFree, Registry.NameFreeAt, Registry.registersType_iff,
      Registry.registeredIn_iff]
  rw [hfree, Registry.registersType_iff]
  constructor
  · rintro ⟨haccepted, -⟩
    exact Registry.nameFreeAt_of_acceptedAt h.isType haccepted
  · intro hname
    -- the first of all types with the identifier is also the first of those with a free name
    have hfirst : Registry.FirstFreeAt schema.builtinSource found (finished schema descriptions ds) b
        p d :=
      ⟨h.firstAt.occurs, hname, fun q hq e he => absurd he (h.firstAt.first q hq e)⟩
    exact ⟨hfirst.acceptedAt, hcategory⟩

/-- In a valid registry the target is registered. -/
theorem registersType_of_isValid (h : ImportTarget schema descriptions ds b p d)
    (hvalid : (Registry.assembleWith schema Rule.standard descriptions ds).isValid = true) :
    Registry.RegistersType schema descriptions ds p d := by
  have hcompatible := (Registry.wellFormed_of_isValid hvalid).compatible.finished schema descriptions
  exact Registry.registersType_iff.2
    ⟨hcompatible.acceptedAt h.firstAt.occurs.1, Definition.isType_iff.1 h.isType⟩

/-- If another type is registered under the identifier of the target, it comes later. -/
theorem lt_of_registersType (h : ImportTarget schema descriptions ds b p d)
    (hnot : ¬ Registry.RegistersType schema descriptions ds p d)
    (he : Registry.RegistersType schema descriptions ds q e)
    (hoccurs : OccursAt (finished schema descriptions ds) b q e) : p < q := by
  rcases Nat.lt_trichotomy q p with hlt | rfl | hlt
  · exact absurd hoccurs (h.firstAt.first q hlt e)
  · obtain rfl := Option.some.inj (hoccurs.1.symm.trans h.firstAt.occurs.1)
    exact absurd he hnot
  · exact hlt

end ImportTarget

/-! ## Fields of the importing type -/

/-- A registered type that is built in the plain way is served with its fields. -/
theorem Registry.RegistersType.serves [Monad m] [LawfulMonad m]
    (h : RegistersType schema descriptions ds p d) (hplain : d.origin = .built .plain) :
    (assembleWith schema Rule.standard descriptions ds).Serves d.identifier
      (.ofDeclaration d.toDeclaration) := by
  obtain ⟨haccepted, hcategory⟩ := registersType_iff.1 h
  exact (assembleWith_holds schema descriptions ds).serves (Definition.compatible_accepted _)
    (Definition.mem_accepted_iff.2 ⟨p, haccepted⟩) (Definition.isType_iff.2 hcategory) hplain

/-- A registered type has all that its imports are offered and do not except. -/
theorem Registry.RegistersType.covers (h : RegistersType schema descriptions ds p d)
    {i : FieldImport} (hi : i ∈ d.fieldImports) {offered : List Field}
    (hoffered : (completeFields (prepare schema descriptions ds)).get? i.target = some offered)
    {f : Field} (hf : f ∈ offered) (hexcept : f.identifier ∉ i.except) :
    ∃ g ∈ d.fields, g.identifier = f.identifier := by
  obtain ⟨haccepted, hcategory⟩ := registersType_iff.1 h
  have hmem : d ∈ finished schema descriptions ds := List.mem_of_getElem? haccepted.1
  obtain ⟨e, -, rfl⟩ := List.mem_map.1 hmem
  have htype : e.isType = true := by
    rw [← Definition.isType_importFields (completeFields (prepare schema descriptions ds)),
      Definition.isType_iff]
    exact hcategory
  rw [importFields_of_isType htype] at hi ⊢
  exact mergedFields_covers (d := e) hi hoffered hf hexcept

end Assembly

open Registry (RegistersType KeepsNameFree)

/-- If a type is registered under `b`, imports from `b` have a target. It is the registered type if and
only if its name is free, as it is in every valid registry; otherwise the registered type comes later.
If it is registered, then whatever type is registered that imports from `b`, both built in the plain way,
is served with every field that is served for `b` and not excepted. -/
theorem imports_are_from_registered_type [Monad m] [LawfulMonad m] (schema : SchemaNames)
    (descriptions : Descriptions) (ds : List (Definition m)) {b : String}
    (hregistered : (Registry.assembleWith schema Rule.standard descriptions ds).types.names.contains
      b = true) :
    let r := Registry.assembleWith schema Rule.standard descriptions ds
    ∃ p d, ImportTarget schema descriptions ds b p d ∧
      (RegistersType schema descriptions ds p d ↔ KeepsNameFree schema descriptions ds p d) ∧
      (r.isValid = true → RegistersType schema descriptions ds p d) ∧
      (¬ RegistersType schema descriptions ds p d →
        ∃ q e, p < q ∧ RegistersType schema descriptions ds q e ∧ e.identifier = b) ∧
      (RegistersType schema descriptions ds p d → d.origin = .built .plain →
        ∃ a, r.Serves b a ∧ ∀ k c, RegistersType schema descriptions ds k c →
          c.origin = .built .plain → ∃ a', r.Serves c.identifier a' ∧
            ∀ i ∈ c.fieldImports, i.target = b → ∀ f ∈ a.fields, f.identifier ∉ i.except →
              ∃ g ∈ a'.fields, g.identifier = f.identifier) := by
  intro r
  obtain ⟨name, hname⟩ := SortedMap.contains_iff.1 hregistered
  obtain ⟨q, e, he, hoccurs⟩ := Registry.registers_of_names_get? hname
  obtain ⟨p, d, htarget⟩ := exists_importTarget hoccurs
  have hidentifier : d.identifier = b := (Definition.isTypeNamed_iff.1 htarget.handedOn.2).2
  refine ⟨p, d, htarget, htarget.registersType_iff_keepsNameFree, htarget.registersType_of_isValid, ?_, ?_⟩
  · intro hnot
    exact ⟨q, e, htarget.lt_of_registersType hnot he hoccurs, he,
      (Definition.isTypeNamed_iff.1 hoccurs.2).2⟩
  · intro hd hplain
    have hserves := hd.serves hplain
    rw [hidentifier] at hserves
    refine ⟨_, hserves, ?_⟩
    intro k c hc hcplain
    refine ⟨_, hc.serves hcplain, ?_⟩
    rintro i hi rfl f hf hexcept
    exact hc.covers hi htarget.offered hf hexcept

/-! ## An identifier that is declared twice -/

/-- A type with these fields that imports all fields of the targets. -/
def plainType (identifier name : String) (fields targets : List String) : Definition Id :=
  { category := .type, identifier, name,
    fields := fields.map fun field => { identifier := field, name := field },
    fieldImports := targets.map fun target => { target }, origin := .built .plain }

/-- A user, an account that is declared twice, and an owner that imports from the account. -/
def declaredTwice (firstName : String) : List (Definition Id) :=
  [plainType "user" "User" [] [], plainType "account" firstName ["email"] [],
    plainType "account" "Account" ["phone"] [], plainType "owner" "Owner" [] ["account"]]

/-- The owner has the fields of the first account, whatever the name of this account is. -/
theorem finished_declaredTwice (firstName : String) :
    finished {} ∅ (declaredTwice firstName) =
      [plainType "user" "User" [] [], plainType "account" firstName ["email"] [],
        plainType "account" "Account" ["phone"] [],
        plainType "owner" "Owner" ["email"] ["account"]] := by cbv

theorem firstAt_declaredTwice (firstName : String) :
    FirstAt (finished {} ∅ (declaredTwice firstName)) "account" 1
      (plainType "account" firstName ["email"] []) := by
  rw [finished_declaredTwice]
  refine ⟨⟨rfl, rfl⟩, ?_⟩
  rintro q hq e ⟨hget, hnamed⟩
  obtain rfl : q = 0 := by omega
  obtain rfl := Option.some.inj hget
  revert hnamed
  decide

/-- With a name of its own the first account is registered, and the owner has its fields. -/
theorem declaredTwice_imports_registered :
    (Registry.assembleWith {} Rule.standard ∅ (declaredTwice "Account")).types.names.contains
        "account" = true ∧
      RegistersType {} ∅ (declaredTwice "Account") 1 (plainType "account" "Account" ["email"] []) ∧
      ∃ a a', (Registry.assembleWith {} Rule.standard ∅ (declaredTwice "Account")).Serves "account" a ∧
        (Registry.assembleWith {} Rule.standard ∅ (declaredTwice "Account")).Serves "owner" a' ∧
        ∀ f ∈ a.fields, ∃ g ∈ a'.fields, g.identifier = f.identifier := by
  have hcontains : (Registry.assembleWith {} Rule.standard ∅
      (declaredTwice "Account")).types.names.contains "account" = true := by cbv
  have hfirst : RegistersType {} ∅ (declaredTwice "Account") 1
      (plainType "account" "Account" ["email"] []) := by
    rw [Registry.registersType_iff, finished_declaredTwice]
    exact ⟨⟨rfl, by decide⟩, rfl⟩
  have howner : RegistersType {} ∅ (declaredTwice "Account") 3
      (plainType "owner" "Owner" ["email"] ["account"]) := by
    rw [Registry.registersType_iff, finished_declaredTwice]
    exact ⟨⟨rfl, by decide⟩, rfl⟩
  obtain ⟨p, d, htarget, -, -, -, hcovers⟩ :=
    imports_are_from_registered_type {} ∅ (declaredTwice "Account") hcontains
  obtain ⟨rfl, rfl⟩ := htarget.firstAt.unique (firstAt_declaredTwice "Account")
  obtain ⟨a, ha, hcovers⟩ := hcovers hfirst rfl
  obtain ⟨a', ha', hcovers⟩ := hcovers 3 _ howner rfl
  refine ⟨hcontains, hfirst, a, a', ha, ha', ?_⟩
  intro f hf
  exact hcovers _ (List.mem_singleton_self _) rfl f hf List.not_mem_nil

/-- If the name of the first account is taken, the second one is registered, but the owner has the fields
of the first: the field that is served for the account is not among those served for the owner. -/
theorem imports_can_be_from_refused_type :
    let r := Registry.assembleWith {} Rule.standard ∅ (declaredTwice "User")
    ∃ first second owner, ImportTarget {} ∅ (declaredTwice "User") "account" 1 first ∧
      ¬ RegistersType {} ∅ (declaredTwice "User") 1 first ∧
      RegistersType {} ∅ (declaredTwice "User") 2 second ∧ second.identifier = "account" ∧
      RegistersType {} ∅ (declaredTwice "User") 3 owner ∧ { target := "account" } ∈ owner.fieldImports ∧
      second.origin = .built .plain ∧ owner.origin = .built .plain ∧
      ∃ a a', r.Serves second.identifier a ∧ r.Serves owner.identifier a' ∧
        ∃ f ∈ a.fields, ∀ g ∈ a'.fields, g.identifier ≠ f.identifier := by
  have hfirst := firstAt_declaredTwice "User"
  have hrefused : ¬ RegistersType {} ∅ (declaredTwice "User") 1
      (plainType "account" "User" ["email"] []) := by
    rw [Registry.registersType_iff, finished_declaredTwice]
    rintro ⟨⟨-, hnone⟩, -⟩
    revert hnone
    decide
  have hsecond : RegistersType {} ∅ (declaredTwice "User") 2
      (plainType "account" "Account" ["phone"] []) := by
    rw [Registry.registersType_iff, finished_declaredTwice]
    exact ⟨⟨rfl, by decide⟩, rfl⟩
  have howner : RegistersType {} ∅ (declaredTwice "User") 3
      (plainType "owner" "Owner" ["email"] ["account"]) := by
    rw [Registry.registersType_iff, finished_declaredTwice]
    exact ⟨⟨rfl, by decide⟩, rfl⟩
  obtain ⟨p, d, htarget⟩ := exists_importTarget hfirst.occurs
  obtain ⟨rfl, rfl⟩ := htarget.firstAt.unique hfirst
  refine ⟨_, _, _, htarget, hrefused, hsecond, rfl, howner, List.mem_singleton_self _, rfl, rfl, _, _,
    hsecond.serves rfl, howner.serves rfl, { identifier := "phone", name := "phone" },
    List.mem_singleton_self _, ?_⟩
  intro g hg
  obtain rfl := List.mem_singleton.1 hg
  decide

end SchemaRegistry
