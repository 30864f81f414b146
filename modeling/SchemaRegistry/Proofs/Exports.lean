import Mathlib
import SchemaRegistry.Proofs.RuleSwitches

/-!
# Exports of a valid registry

Exports are one set of identifiers, while types and directives are separate: a type and a directive may
well have the same identifier. So the set does not tell the two apart. In a valid registry an identifier
is exported if the registered type or the registered directive with it is to be exported
(`exports_of_valid_registry`). Where the identifier belongs to one category only, this is what the
definition itself asks for. Otherwise a definition that is not to be exported is listed all the same as
soon as its namesake is (`namesakes_share_exports`).
-/

namespace SchemaRegistry

variable {m : Type → Type}

namespace Registry

/-! ## What is exported together with a definition -/

/-- The definition `e` is registered in the other category than `d`, with the same identifier, and is to
be exported. -/
def ExportedNamesake (c : Config) (descriptions : Descriptions) (ds : List (Definition m))
    (d e : Definition m) : Prop :=
  (∃ q, Registers c descriptions ds e.category q e) ∧ e.category ≠ d.category ∧
    e.identifier = d.identifier ∧ e.isExported c.schema.builtinSource = true

/-- What the exports say about a registered definition. -/
structure ExportLaw (c : Config) (descriptions : Descriptions) (ds : List (Definition m))
    (d : Definition m) : Prop where
  /-- Its identifier is exported if it is to be exported itself, or has a namesake that is. -/
  exported_iff : d.identifier ∈ (assemble c descriptions ds).exports ↔
    d.isExported c.schema.builtinSource = true ∨ ∃ e, ExportedNamesake c descriptions ds d e
  /-- So without a registered namesake only its own wish and origin count. -/
  alone : (∀ category q e, Registers c descriptions ds category q e → category ≠ d.category →
      e.identifier ≠ d.identifier) →
    (d.identifier ∈ (assemble c descriptions ds).exports ↔
      d.isExported c.schema.builtinSource = true)
  /-- A definition whose author does not want it exported, or that is imported from the built-in library
  without a wish, has its identifier exported only because of a namesake. -/
  withheld : d.wish.exported = some false ∨
      d.wish.exported = none ∧ d.origin.sourceName? = some c.schema.builtinSource →
    (d.identifier ∈ (assemble c descriptions ds).exports ↔
      ∃ e, ExportedNamesake c descriptions ds d e)

section Valid

variable {c : Config} {descriptions : Descriptions} {ds : List (Definition m)}

/-- Within a category an identifier leads to one registered definition. -/
theorem Registers.eq_of_identifier_eq {category : Category} {p q : Nat} {d e : Definition m}
    (hd : Registers c descriptions ds category p d) (he : Registers c descriptions ds category q e)
    (heq : e.identifier = d.identifier) : e = d := by
  have hfound := hd.find?_identifier
  rw [← heq, he.find?_identifier] at hfound
  exact Option.some.inj hfound

/-- In a valid registry whatever is exported comes from a registered definition. -/
theorem mem_exports_of_isValid (h : (assemble c descriptions ds).isValid = true) {x : String} :
    x ∈ (assemble c descriptions ds).exports ↔
      ∃ q e, Registers c descriptions ds e.category q e ∧
        e.isExported c.schema.builtinSource = true ∧ e.identifier = x := by
  have hread : x ∈ (assemble c descriptions ds).exports ↔ ∃ e ∈ c.handedOn descriptions ds,
      e.isExported c.schema.builtinSource = true ∧ e.identifier = x := mem_exports_ofDefinitions
  rw [hread]
  constructor
  · rintro ⟨e, he, hexported⟩
    obtain ⟨q, hq⟩ := List.mem_iff_getElem?.1 he
    exact ⟨q, e, (registers_iff_of_isValid h).2 ⟨hq, rfl⟩, hexported⟩
  · rintro ⟨q, e, hregistered, hexported⟩
    have hget := ((registers_iff_of_isValid h).1 hregistered).1
    exact ⟨e, List.mem_of_getElem? hget, hexported⟩

theorem Registers.exported_iff (h : (assemble c descriptions ds).isValid = true)
    {category : Category} {p : Nat} {d : Definition m}
    (hd : Registers c descriptions ds category p d) :
    d.identifier ∈ (assemble c descriptions ds).exports ↔
      d.isExported c.schema.builtinSource = true ∨ ∃ e, ExportedNamesake c descriptions ds d e := by
  obtain rfl : d.category = category := (registeredIn_iff.1 hd).2
  rw [mem_exports_of_isValid h]
  constructor
  · rintro ⟨q, e, he, hexported, hidentifier⟩
    by_cases hcategory : e.category = d.category
    · -- the exported definition is this one
      rw [hcategory] at he
      obtain rfl := hd.eq_of_identifier_eq he hidentifier
      exact .inl hexported
    · exact .inr ⟨e, ⟨q, he⟩, hcategory, hidentifier, hexported⟩
  · rintro (hexported | ⟨e, ⟨q, he⟩, -, hidentifier, hexported⟩)
    · exact ⟨p, d, hd, hexported, rfl⟩
    · exact ⟨q, e, he, hexported, hidentifier⟩

end Valid

end Registry

/-- A definition whose author does not want it exported is not to be exported, nor is an import from the
built-in library without a wish. -/
theorem Definition.isExported_eq_false {builtinSource : String} {d : Definition m}
    (h : d.wish.exported = some false ∨
      d.wish.exported = none ∧ d.origin.sourceName? = some builtinSource) :
    d.isExported builtinSource = false := by
  unfold isExported
  rcases h with hwish | ⟨hwish, horigin⟩
  · rw [hwish, Option.getD_some]
  · rw [hwish, Option.getD_none, horigin, bne_self_eq_false]

open Registry (Registers ExportedNamesake ExportLaw)

/-- In a valid registry, whatever its configuration is, every definition is registered, and an identifier
is exported if and only if the registered type or the registered directive that has it is to be
exported. -/
theorem exports_of_valid_registry (c : Config) (descriptions : Descriptions) (ds : List (Definition m))
    (hvalid : (Registry.assemble c descriptions ds).isValid = true) :
    (∀ p d, ds[p]? = some d →
      ∃ d', Registers c descriptions ds d.category p d' ∧ d'.heading = d.heading) ∧
    ∀ category p d, Registers c descriptions ds category p d → ExportLaw c descriptions ds d := by
  refine ⟨fun p d hd => Registry.exists_registers_of_isValid hvalid hd, ?_⟩
  intro category p d hd
  have hiff := hd.exported_iff hvalid
  constructor
  case exported_iff => exact hiff
  case alone =>
    intro halone
    have hnone : ¬ ∃ e, ExportedNamesake c descriptions ds d e := by
      rintro ⟨e, ⟨q, he⟩, hcategory, hidentifier, -⟩
      exact halone e.category q e he hcategory hidentifier
    rw [hiff, or_iff_left hnone]
  case withheld =>
    intro hwithheld
    rw [hiff, Definition.isExported_eq_false hwithheld, or_iff_right Bool.false_ne_true]

/-- As long as no rule is switched off, the rules are the built-in ones. -/
example (schema : SchemaNames) (descriptions : Descriptions) (ds : List (Definition m)) :
    Registry.assemble { schema } descriptions ds =
      Registry.assembleWith schema Rule.standard descriptions ds := rfl

/-! ## Namesakes -/

/-- A type that its author does not want exported. -/
def secretType (identifier name : String) : Definition Id :=
  { category := .type, identifier, name, wish := ⟨some false⟩, origin := .built .plain }

/-- A directive that is exported as usual. -/
def publicDirective (identifier : String) : Definition Id :=
  { category := .directive, identifier, name := identifier, origin := .built .plain }

/-- A scalar that is imported from the built-in library. -/
def builtinScalar (identifier name : String) : Definition Id :=
  { category := .type, identifier, name, origin := .imported (BuiltinLibrary.source "builtins") }

/-- Two types that are not to be exported, each with a directive of the same identifier, and a third one
without. -/
def namesakes : List (Definition Id) :=
  [secretType "secret" "Secret", publicDirective "secret", builtinScalar "string" "String",
    publicDirective "string", secretType "token" "Token"]

theorem isValid_namesakes : (Registry.assemble {} ∅ namesakes).isValid = true := by cbv

theorem mem_exports_namesakes (x : String) :
    x ∈ (Registry.assemble {} ∅ namesakes).exports ↔ x ∈ ["secret", "string"] := by
  have hexports : (Registry.assemble {} ∅ namesakes).exports = .ofList ["secret", "string"] := by cbv
  rw [hexports, SortedSet.mem_ofList]

/-- They are all registered as they are. -/
theorem registers_namesakes_iff {category : Category} {p : Nat} {d : Definition Id} :
    Registers {} ∅ namesakes category p d ↔ namesakes[p]? = some d ∧ d.category = category := by
  have hhanded : Config.handedOn {} ∅ namesakes = namesakes := by cbv
  rw [Registry.registers_iff_of_isValid isValid_namesakes, hhanded]

/-- The type without a directive of its identifier is kept secret. The other one is exported, because
there is such a directive. -/
theorem token_is_kept_secret :
    let r := Registry.assemble {} ∅ namesakes
    r.isValid = true ∧
      (Registers {} ∅ namesakes .type 4 (secretType "token" "Token") ∧ "token" ∉ r.exports) ∧
      Registers {} ∅ namesakes .type 0 (secretType "secret" "Secret") ∧ "secret" ∈ r.exports ∧
        ∃ e, ExportedNamesake {} ∅ namesakes (secretType "secret" "Secret") e := by
  obtain ⟨-, hlaw⟩ := exports_of_valid_registry {} ∅ namesakes isValid_namesakes
  have htoken : Registers {} ∅ namesakes .type 4 (secretType "token" "Token") :=
    registers_namesakes_iff.2 ⟨rfl, rfl⟩
  have hsecret : Registers {} ∅ namesakes .type 0 (secretType "secret" "Secret") :=
    registers_namesakes_iff.2 ⟨rfl, rfl⟩
  have hlisted := (mem_exports_namesakes "secret").2 (by decide)
  have hnobody : ∀ e ∈ namesakes, e.category ≠ .type → e.identifier ≠ "token" := by decide
  refine ⟨isValid_namesakes, ⟨htoken, ?_⟩, hsecret, hlisted,
    ((hlaw .type 0 _ hsecret).withheld (.inl rfl)).1 hlisted⟩
  intro htokenListed
  have hexported := ((hlaw .type 4 _ htoken).alone ?_).1 htokenListed
  · cases hexported
  · intro category q e he hcategory
    obtain ⟨hget, rfl⟩ := registers_namesakes_iff.1 he
    exact hnobody e (List.mem_of_getElem? hget) hcategory

/-- A type that is not to be exported is listed if a directive has its identifier, and so is an import
from the built-in library, although the registry is valid. -/
theorem namesakes_share_exports :
    let r := Registry.assemble {} ∅ namesakes
    r.isValid = true ∧
      (Registers {} ∅ namesakes .type 0 (secretType "secret" "Secret") ∧
        (secretType "secret" "Secret").wish.exported = some false ∧
        (secretType "secret" "Secret").isExported "builtins" = false ∧ "secret" ∈ r.exports) ∧
      Registers {} ∅ namesakes .type 2 (builtinScalar "string" "String") ∧
        (builtinScalar "string" "String").wish.exported = none ∧
        (builtinScalar "string" "String").origin.sourceName? = some "builtins" ∧
        (builtinScalar "string" "String").isExported "builtins" = false ∧ "string" ∈ r.exports := by
  refine ⟨isValid_namesakes, ⟨registers_namesakes_iff.2 ⟨rfl, rfl⟩, rfl, rfl, ?_⟩,
    registers_namesakes_iff.2 ⟨rfl, rfl⟩, rfl, rfl, rfl, ?_⟩
  · exact (mem_exports_namesakes "secret").2 (by decide)
  · exact (mem_exports_namesakes "string").2 (by decide)

end SchemaRegistry
