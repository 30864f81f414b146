import Mathlib
import SchemaRegistry.Assembly
import SchemaRegistry.BuiltinLibrary
import SchemaRegistry.Proofs.Registry.Lookup
import SchemaRegistry.Proofs.Registry.RunLog

/-!
# Artifacts through chains of registries

A registry can import from another one, which imports from a third one, and so on. Each of them has
definitions, descriptions, rules and names of its own, and before the registration all of these have a say
in what becomes of the importing definition. Its artifact does not depend on any of them: the producer of
an import holds nothing but category and identifier, and it asks by identifier only. So an artifact comes
through any number of registries as it is (`imports_relay_artifacts`).
-/

namespace SchemaRegistry

variable {m : Type → Type}

/-- What a registry is assembled from. -/
structure Blueprint (m : Type → Type) where
  schema : SchemaNames := {}
  rules : List (Rule m) := Rule.standard
  descriptions : Descriptions := ∅
  definitions : List (Definition m)

namespace Blueprint

/-- What the rules leave. -/
def checked (b : Blueprint m) : Checked m :=
  Rule.runAll b.rules (Definition.prepare b.schema b.descriptions b.definitions)

/-- The assembled registry. -/
def registry (b : Blueprint m) : Registry m :=
  .assembleWith b.schema b.rules b.descriptions b.definitions

theorem registry_eq (b : Blueprint m) :
    b.registry =
      .ofDefinitions b.schema.builtinSource b.checked.definitions b.checked.diagnostics := rfl

/-- The assembled registry has registered the definition under the identifier. -/
def Registers (b : Blueprint m) (category : Category) (identifier : String) (d : Definition m) :
    Prop :=
  (∃ p, Registry.RegisteredIn b.schema.builtinSource b.checked.diagnostics b.checked.definitions
    category p d) ∧ d.identifier = identifier

/-- What the assembled registry has registered under the identifier is imported from the registry that is
assembled from `b'`, whatever this one is called as a source. -/
def ImportsFrom [Monad m] (b b' : Blueprint m) (category : Category) (identifier : String) : Prop :=
  ∃ d name, b.Registers category identifier d ∧ d.origin = .imported (b'.registry.asSource name)

variable {b b' : Blueprint m} {category : Category} {identifier : String}

/-- Under a registered identifier other registries find what its producer realizes. -/
theorem Registers.find_eq [Monad m] {d : Definition m} (h : b.Registers category identifier d) :
    b.registry.find Slot.realize category identifier = (Producer.ofDefinition d).realize := by
  rcases h with ⟨⟨p, hd⟩, rfl⟩
  rw [registry_eq, hd.finds_identifier m Slot.realize]
  rfl

/-- The identifiers of a registry are those under which it has registered a definition. -/
theorem mem_identifiers_iff :
    identifier ∈ b.registry.identifiers category ↔ ∃ d, b.Registers category identifier d := by
  rw [registry_eq, Registry.identifiers, List.mem_map]
  constructor
  · rintro ⟨slot, hslot, rfl⟩
    rcases Registry.mem_slots_iff.1 hslot with ⟨p, d, hd, rfl⟩
    exact ⟨d, ⟨p, hd⟩, rfl⟩
  · rintro ⟨d, ⟨p, hd⟩, rfl⟩
    exact ⟨Slot.ofDefinition d, Registry.mem_slots_iff.2 ⟨p, d, hd, rfl⟩, rfl⟩

/-- Under another identifier they find nothing, whatever name it is. -/
theorem find_eq_none [Monad m] (h : identifier ∉ b.registry.identifiers category) :
    b.registry.find Slot.realize category identifier = pure none := by
  have hfree : ∀ p d, Registry.RegisteredIn b.schema.builtinSource b.checked.diagnostics
      b.checked.definitions category p d → d.identifier ≠ identifier := by
    intro p d hd hidentifier
    exact h (mem_identifiers_iff.2 ⟨d, ⟨p, hd⟩, hidentifier⟩)
  rw [registry_eq, Registry.finds_none hfree m Slot.realize]
  rfl

/-- One import hands on what is found in the other registry. -/
theorem ImportsFrom.find_eq [Monad m] (h : b.ImportsFrom b' category identifier) :
    b.registry.find Slot.realize category identifier =
      b'.registry.find Slot.realize category identifier := by
  rcases h with ⟨d, name, hd, horigin⟩
  have hproducer : Producer.ofDefinition d =
      .fetch (b'.registry.asSource name) d.category d.identifier := by
    rw [Producer.ofDefinition, horigin]
  rw [hd.find_eq, hproducer]
  rcases hd with ⟨⟨p, -, rfl⟩, rfl⟩
  rfl

/-- So do any number of imports, one behind the other. -/
theorem find_eq_of_chain [Monad m] {R : Nat → Blueprint m} {n : Nat}
    (h : ∀ k < n, (R (k + 1)).ImportsFrom (R k) category identifier) :
    (R n).registry.find Slot.realize category identifier =
      (R 0).registry.find Slot.realize category identifier := by
  induction n with
  | zero => rfl
  | succ n ih =>
    have hlast := (h n (Nat.lt_succ_self n)).find_eq
    rw [hlast]
    exact ih fun k hk => h k (Nat.lt_succ_of_lt hk)

/-- It makes no difference to a registry that has not been asked before whether answers are kept. -/
theorem find_realizeOnce [Monad m] [LawfulMonad m] (b : Blueprint m) (category : Category)
    (identifier : String) :
    (b.registry.find Slot.realizeOnce category identifier).run' {} =
      b.registry.find Slot.realize category identifier := by
  unfold Registry.find
  cases (b.registry.index category).find? identifier with
  | none => simp [StateT.run'_eq]
  | some slot =>
    have hnew : ({} : Cache).get? category slot.identifier = none := by
      cases category <;> simp [Cache.get?]
    rw [StateT.run'_eq, Slot.run_realizeOnce_of_new hnew]
    simp [Slot.realize]

end Blueprint

/-- Let each of any number of registries have registered, under one and the same identifier, an import from
the registry before it. Whatever else the registries are assembled from, what is found in the last one
under the identifier is what is found in the first one, if artifacts are obtained anew, and if nothing has
been asked before and answers are kept. It is what the definition that the first one has registered comes
to. If there is no such definition, there is nothing, also if the identifier is a name there. -/
theorem imports_relay_artifacts [Monad m] [LawfulMonad m] (R : Nat → Blueprint m) (n : Nat)
    (category : Category) (identifier : String)
    (h : ∀ k < n, (R (k + 1)).ImportsFrom (R k) category identifier) :
    (R n).registry.find Slot.realize category identifier =
        (R 0).registry.find Slot.realize category identifier ∧
      ((R n).registry.find Slot.realizeOnce category identifier).run' {} =
        ((R 0).registry.find Slot.realizeOnce category identifier).run' {} ∧
      (∀ d, (R 0).Registers category identifier d →
        (R n).registry.find Slot.realize category identifier = (Producer.ofDefinition d).realize) ∧
      (identifier ∉ (R 0).registry.identifiers category →
        (R n).registry.find Slot.realize category identifier = pure none) := by
  have hchain := Blueprint.find_eq_of_chain h
  refine ⟨hchain, ?_, ?_, ?_⟩
  · rw [Blueprint.find_realizeOnce, Blueprint.find_realizeOnce, hchain]
  · intro d hd
    rw [hchain, hd.find_eq]
  · intro hnone
    rw [hchain, Blueprint.find_eq_none hnone]

/-- The integers of a source under another name, with fields of their own and of another type, and with an
interface. -/
def wholeNumber (source : Source Id) : Definition Id :=
  { category := .type, identifier := "integer", name := "Whole",
    fields := [{ identifier := "sign", name := "sign" }], fieldImports := [{ target := "number" }],
    interfaces := ["number"], origin := .imported source }

/-- The type that fields are imported from. -/
def anyNumber : Definition Id :=
  { category := .type, identifier := "number", name := "Number",
    fields := [{ identifier := "size", name := "size" }], origin := .built .plain }

/-- What a source has under the name of the integers. -/
def intByName (source : Source Id) : Definition Id :=
  { category := .type, identifier := "Int", name := "Int", origin := .imported source }

/-- All three, with a description of the integers. -/
def relay (origin description : String) (source : Source Id) : Blueprint Id where
  schema := { builtinSource := origin }
  descriptions := .insert ∅ "integer" description
  definitions := [wholeNumber source, anyNumber, intByName source]

/-- The built-in library, and behind it one relay after the other. -/
def relays : Nat → Blueprint Id
  | 0 => { definitions := BuiltinLibrary.definitions }
  | 1 => relay "builtins" "A number without fractional part." ((relays 0).registry.asSource "builtins")
  | k + 2 => relay "relay" "An integer." ((relays (k + 1)).registry.asSource "relay")

/-- The rules see to it that the integers get their description and the other fields. -/
theorem relay_checked (origin description : String) (source : Source Id) :
    (relay origin description source).checked.definitions =
      [{ wholeNumber source with
          description := some description, fields := (wholeNumber source).fields ++ anyNumber.fields },
        anyNumber, intByName source] := by
  cbv

theorem relay_importsFrom (origin description name : String) (b : Blueprint Id) :
    (relay origin description (b.registry.asSource name)).ImportsFrom b .type "integer" ∧
      (relay origin description (b.registry.asSource name)).ImportsFrom b .type "Int" := by
  have hdefinitions := relay_checked origin description (b.registry.asSource name)
  constructor
  · refine ⟨{ wholeNumber (b.registry.asSource name) with
      description := some description,
      fields := (wholeNumber (b.registry.asSource name)).fields ++ anyNumber.fields }, name,
      ⟨⟨0, ⟨?_, ?_⟩, rfl⟩, rfl⟩, rfl⟩
    · rw [hdefinitions]
      rfl
    · rw [hdefinitions]
      rfl
  · refine ⟨intByName (b.registry.asSource name), name, ⟨⟨2, ⟨?_, ?_⟩, rfl⟩, rfl⟩, rfl⟩
    · rw [hdefinitions]
      rfl
    · rw [hdefinitions]
      cbv

/-- Behind three relays the integers are what they are in the library, and under their name there is
nothing. -/
theorem integers_come_through :
    (∀ k < 3, (relays (k + 1)).ImportsFrom (relays k) .type "integer" ∧
        (relays (k + 1)).ImportsFrom (relays k) .type "Int") ∧
      ((relays 3).registry.find Slot.realize .type "integer").run =
        some ⟨.type, "integer", "Int", some "Signed 32-bit integer.", [], [], ∅⟩ ∧
      ((relays 3).registry.find Slot.realize .type "Int").run = none := by
  have hrelays : ∀ k, (relays (k + 1)).ImportsFrom (relays k) .type "integer" ∧
      (relays (k + 1)).ImportsFrom (relays k) .type "Int" := by
    intro k
    cases k with
    | zero => exact relay_importsFrom _ _ _ _
    | succ k => exact relay_importsFrom _ _ _ _
  have hinteger := imports_relay_artifacts relays 3 .type "integer" fun k _ => (hrelays k).1
  have hint := imports_relay_artifacts relays 3 .type "Int" fun k _ => (hrelays k).2
  refine ⟨fun k _ => hrelays k, ?_, ?_⟩
  · rw [hinteger.1]
    cbv
  · have hidentifiers : (relays 0).registry.identifiers .type =
        ["string", "integer", "float", "boolean", "id"] := by cbv
    have hname : "Int" ∉ (relays 0).registry.identifiers .type := by
      rw [hidentifiers]
      decide
    rw [hint.2.2.2 hname]
    rfl

end SchemaRegistry
