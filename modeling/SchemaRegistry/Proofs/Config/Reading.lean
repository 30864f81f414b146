import SchemaRegistry.Config.Reading
import SchemaRegistry.Proofs.Config.Merging
import SchemaRegistry.Proofs.Json.Given

/-!
# The parts of a configuration

A configuration has five parts, three names and two switches (`ConfigPart`), each with a place of its own
among the settings. Where the two sections are tables, or are not there, the configuration that settings
are read as has the parts that stand at these places, each read for itself and by default if there is
nothing (`Config.ofSetting_eq_ok_iff`). So a section that holds one key says nothing about its other
keys.

A layer `Sets` some of the parts to values if it says just these at the places of the parts, in the form
in which such values are written. Of layers that set parts, the last one that sets a part decides it
(`Config.exists_ofLayers`).
-/

namespace SchemaRegistry

open Json (bind_eq_ok_iff andThen_eq_ok_iff)

/-! ## Parts -/

/-- The names that can be set. -/
inductive SchemaPart where
  | builtinSource
  | mutation
  | subscription
deriving DecidableEq

/-- The switches that can be set. -/
inductive RulePart where
  | importsExist
  | importsAcyclic
deriving DecidableEq

/-- What can be set. -/
inductive ConfigPart where
  | name (part : SchemaPart)
  | switch (part : RulePart)
deriving DecidableEq

def SchemaNames.get (names : SchemaNames) : SchemaPart → String
  | .builtinSource => names.builtinSource
  | .mutation => names.mutation
  | .subscription => names.subscription

def RuleSwitches.get (switches : RuleSwitches) : RulePart → Bool
  | .importsExist => switches.importsExist
  | .importsAcyclic => switches.importsAcyclic

theorem SchemaNames.ext_get {names names' : SchemaNames} (h : ∀ part, names.get part = names'.get part) :
    names = names' := by
  have hbuiltinSource := h .builtinSource
  have hmutation := h .mutation
  have hsubscription := h .subscription
  cases names
  cases names'
  simp_all [get]

theorem RuleSwitches.ext_get {switches switches' : RuleSwitches}
    (h : ∀ part, switches.get part = switches'.get part) : switches = switches' := by
  have himportsExist := h .importsExist
  have himportsAcyclic := h .importsAcyclic
  cases switches
  cases switches'
  simp_all [get]

namespace ConfigPart

/-- What a part is set to. -/
def Value : ConfigPart → Type
  | .name _ => String
  | .switch _ => Bool

/-- Where a part is set. -/
def place : ConfigPart → SettingPlace
  | .name .builtinSource => ⟨"schema", "builtin_source"⟩
  | .name .mutation => ⟨"schema", "mutation"⟩
  | .name .subscription => ⟨"schema", "subscription"⟩
  | .switch .importsExist => ⟨"rules", "field_imports_exist"⟩
  | .switch .importsAcyclic => ⟨"rules", "no_circular_field_imports"⟩

theorem table_name (part : SchemaPart) : (name part).place.table = "schema" := by
  cases part <;> rfl

theorem table_switch (part : RulePart) : (switch part).place.table = "rules" := by
  cases part <;> rfl

/-- The plain value as which a part is written. -/
def scalar : (x : ConfigPart) → x.Value → Scalar
  | .name _ => Scalar.text
  | .switch _ => Scalar.boolean

/-- Reads the setting of a part. -/
def read : (x : ConfigPart) → Setting → Except ConfigFault x.Value
  | .name part => Setting.readText ("schema" ++ "." ++ (name part).place.key)
  | .switch part => Setting.readBoolean ("rules" ++ "." ++ (switch part).place.key)

theorem read_scalar (x : ConfigPart) (origin : Option String) (v : x.Value) :
    x.read (.scalar origin (x.scalar v)) = .ok v := by
  cases x with
  | name part => rfl
  | switch part => rfl

end ConfigPart

/-- A part of a configuration. -/
def Config.get (c : Config) : (x : ConfigPart) → x.Value
  | .name part => c.schema.get part
  | .switch part => c.rules.get part

namespace ConfigPart

/-- The value of a part that is set nowhere. -/
def default (x : ConfigPart) : x.Value := ({} : Config).get x

/-- Reads a part from the setting that stands in its place, if there is one. -/
def readFrom (x : ConfigPart) : Option Setting → Except ConfigFault x.Value
  | some s => x.read s
  | none => .ok x.default

end ConfigPart

theorem Config.ext_get {c c' : Config} (h : ∀ x, c.get x = c'.get x) : c = c' := by
  have hschema : c.schema = c'.schema := SchemaNames.ext_get fun part => h (.name part)
  have hrules : c.rules = c'.rules := RuleSwitches.ext_get fun part => h (.switch part)
  cases c
  cases c'
  simp_all

/-! ## Reading -/

/-- A section can be read. -/
theorem Setting.checkSection_of_isTable {s : Setting} (h : s.IsTable) (expected : String) :
    s.checkSection expected = .ok () := by
  cases s with
  | scalar origin value => exact absurd h id
  | list origin items => rfl
  | table origin members => rfl

theorem Setting.readMember_of_isTable {α : Type} {s : Setting} (h : s.IsTable)
    (read : String → Setting → Except ConfigFault α) (name : String) (position : Nat) (key : String)
    (absent : α) :
    s.readMember read name position key absent =
      match s.get? key with
      | some member => read (name ++ "." ++ key) member
      | none => .ok absent := by
  cases s with
  | scalar origin value => exact absurd h id
  | list origin items => exact absurd h id
  | table origin members => rfl

/-- The names are read from a table part by part. -/
theorem SchemaNames.ofSetting_eq_ok_iff {s : Setting} (h : s.IsTable) {names : SchemaNames} :
    ofSetting s = .ok names ↔ ∀ part : SchemaPart,
      (ConfigPart.name part).readFrom (s.get? (ConfigPart.name part).place.key) =
        .ok (names.get part) := by
  have hread : ∀ (part : SchemaPart) (position : Nat),
      s.readMember Setting.readText "schema" position (ConfigPart.name part).place.key
        (({} : SchemaNames).get part) =
      (ConfigPart.name part).readFrom (s.get? (ConfigPart.name part).place.key) := by
    intro part position
    rw [Setting.readMember_of_isTable h]
    cases s.get? (ConfigPart.name part).place.key <;> rfl
  unfold ofSetting
  rw [Setting.checkSection_of_isTable h, andThen_eq_ok_iff]
  simp only [bind_eq_ok_iff, true_and]
  constructor
  · rintro ⟨builtinSource, hbuiltinSource, mutation, hmutation, subscription, hsubscription, hnames⟩
    cases hnames
    rintro ⟨⟩
    · exact (hread .builtinSource 0).symm.trans hbuiltinSource
    · exact (hread .mutation 1).symm.trans hmutation
    · exact (hread .subscription 2).symm.trans hsubscription
  · intro hall
    exact ⟨_, (hread .builtinSource 0).trans (hall .builtinSource),
      _, (hread .mutation 1).trans (hall .mutation),
      _, (hread .subscription 2).trans (hall .subscription), rfl⟩

/-- The switches are read from a table part by part. -/
theorem RuleSwitches.ofSetting_eq_ok_iff {s : Setting} (h : s.IsTable) {switches : RuleSwitches} :
    ofSetting s = .ok switches ↔ ∀ part : RulePart,
      (ConfigPart.switch part).readFrom (s.get? (ConfigPart.switch part).place.key) =
        .ok (switches.get part) := by
  have hread : ∀ (part : RulePart) (position : Nat),
      s.readMember Setting.readBoolean "rules" position (ConfigPart.switch part).place.key
        (({} : RuleSwitches).get part) =
      (ConfigPart.switch part).readFrom (s.get? (ConfigPart.switch part).place.key) := by
    intro part position
    rw [Setting.readMember_of_isTable h]
    cases s.get? (ConfigPart.switch part).place.key <;> rfl
  unfold ofSetting
  rw [Setting.checkSection_of_isTable h, andThen_eq_ok_iff]
  simp only [bind_eq_ok_iff, true_and]
  constructor
  · rintro ⟨importsExist, himportsExist, importsAcyclic, himportsAcyclic, hswitches⟩
    cases hswitches
    rintro ⟨⟩
    · exact (hread .importsExist 0).symm.trans himportsExist
    · exact (hread .importsAcyclic 1).symm.trans himportsAcyclic
  · intro hall
    exact ⟨_, (hread .importsExist 0).trans (hall .importsExist),
      _, (hread .importsAcyclic 1).trans (hall .importsAcyclic), rfl⟩

namespace Config

section Sections

variable {s : Setting} {c : Config}

/-- The names as they are read from settings. -/
def namesIn (s : Setting) : Except ConfigFault SchemaNames :=
  match s.get? "schema" with
  | some part => SchemaNames.ofSetting part
  | none => .ok {}

/-- The switches as they are read from settings. -/
def switchesIn (s : Setting) : Except ConfigFault RuleSwitches :=
  match s.get? "rules" with
  | some part => RuleSwitches.ofSetting part
  | none => .ok {}

theorem ofSetting_eq_ok_iff_sections :
    ofSetting s = .ok c ↔ namesIn s = .ok c.schema ∧ switchesIn s = .ok c.rules := by
  have heq : ofSetting s = (do return ⟨← namesIn s, ← switchesIn s⟩) := by
    unfold ofSetting namesIn switchesIn
    cases s.get? "schema" <;> cases s.get? "rules" <;> rfl
  rw [heq, bind_eq_ok_iff]
  constructor
  · rintro ⟨schema, hschema, h⟩
    obtain ⟨rules, hrules, hc⟩ := bind_eq_ok_iff.1 h
    cases hc
    exact ⟨hschema, hrules⟩
  · rintro ⟨hschema, hrules⟩
    exact ⟨c.schema, hschema, bind_eq_ok_iff.2 ⟨c.rules, hrules, rfl⟩⟩

/-- If their section is a table or is not there, the names are read part by part. -/
theorem namesIn_eq_ok_iff (h : ∀ part, s.get? "schema" = some part → part.IsTable)
    {names : SchemaNames} :
    namesIn s = .ok names ↔ ∀ part : SchemaPart,
      (ConfigPart.name part).readFrom (s.at? (ConfigPart.name part).place) = .ok (names.get part) := by
  simp only [namesIn, Setting.at?, ConfigPart.table_name]
  cases hsection : s.get? "schema" with
  | some table => exact SchemaNames.ofSetting_eq_ok_iff (h table hsection)
  | none =>
    constructor
    · intro hnames part
      cases hnames
      rfl
    · intro hall
      have hdefaults : ({} : SchemaNames) = names :=
        SchemaNames.ext_get fun part => Except.ok.inj (hall part)
      exact congrArg Except.ok hdefaults

/-- If their section is a table or is not there, the switches are read part by part. -/
theorem switchesIn_eq_ok_iff (h : ∀ part, s.get? "rules" = some part → part.IsTable)
    {switches : RuleSwitches} :
    switchesIn s = .ok switches ↔ ∀ part : RulePart,
      (ConfigPart.switch part).readFrom (s.at? (ConfigPart.switch part).place) =
        .ok (switches.get part) := by
  simp only [switchesIn, Setting.at?, ConfigPart.table_switch]
  cases hsection : s.get? "rules" with
  | some table => exact RuleSwitches.ofSetting_eq_ok_iff (h table hsection)
  | none =>
    constructor
    · intro hswitches part
      cases hswitches
      rfl
    · intro hall
      have hdefaults : ({} : RuleSwitches) = switches :=
        RuleSwitches.ext_get fun part => Except.ok.inj (hall part)
      exact congrArg Except.ok hdefaults

/-- A configuration is read part by part, each from its own place. -/
theorem ofSetting_eq_ok_iff (h : ∀ x : ConfigPart, s.Open x.place) :
    ofSetting s = .ok c ↔ ∀ x : ConfigPart, x.readFrom (s.at? x.place) = .ok (c.get x) := by
  rw [ofSetting_eq_ok_iff_sections, namesIn_eq_ok_iff (h (.name .mutation)),
    switchesIn_eq_ok_iff (h (.switch .importsExist))]
  constructor
  · rintro ⟨hnames, hswitches⟩ x
    cases x with
    | name part => exact hnames part
    | switch part => exact hswitches part
  · intro hall
    exact ⟨fun part => hall (.name part), fun part => hall (.switch part)⟩

/-- A name is read from its place if the section of the names is a table. -/
theorem readFrom_of_ofSetting {part : SchemaPart} (h : ofSetting s = .ok c)
    (hopen : s.Open (ConfigPart.name part).place) :
    (ConfigPart.name part).readFrom (s.at? (ConfigPart.name part).place) = .ok (c.schema.get part) := by
  rw [Setting.Open, ConfigPart.table_name] at hopen
  exact (namesIn_eq_ok_iff hopen).1 (ofSetting_eq_ok_iff_sections.1 h).1 part

end Sections

/-- A configuration is read from layers if they can be merged and it is read from the settings that they
give. -/
theorem ofLayers_eq_ok_iff {layers : List Layer} {c : Config} :
    ofLayers layers = .ok c ↔ ∃ s, Setting.ofLayers layers = some s ∧ ofSetting s = .ok c := by
  unfold ofLayers
  cases Setting.ofLayers layers with
  | none => simp
  | some s => simp

end Config

/-! ## Layers that set parts -/

/-- Values for some of the parts. -/
def Overrides : Type := (x : ConfigPart) → Option x.Value

/-- The value of the last overrides that have one for the part. -/
def Overrides.last (overrides : List Overrides) (x : ConfigPart) : Option x.Value :=
  overrides.reverse.findSome? (· x)

/-- The layer sets these parts to these values and the others not at all, and it can be merged with any
other layers. -/
structure Layer.Sets (layer : Layer) (o : Overrides) : Prop where
  forward : layer.CountsForward
  plain : ∀ x : ConfigPart, layer.Plain x.place
  silent : ∀ x : ConfigPart, o x = none → layer.said x.place = none
  says_value : ∀ (x : ConfigPart) (v : x.Value), o x = some v →
    ∃ origin, layer.said x.place = some (.scalar origin (x.scalar v))

/-- A layer without entries sets nothing. -/
theorem Layer.sets_nil : Layer.Sets [] fun _ => none where
  forward _ h := absurd h List.not_mem_nil
  plain _ _ h := absurd h List.not_mem_nil
  silent _ _ := rfl
  says_value _ _ h := by cases h

section Layers

variable {layers : List Layer} {overrides : List Overrides}

/-- What layers say in the end about a part is the last value that one of them sets it to. -/
theorem said_of_sets (h : List.Forall₂ Layer.Sets layers overrides) (x : ConfigPart) :
    (Overrides.last overrides x = none → layers.reverse.findSome? (Layer.said · x.place) = none) ∧
      ∀ v, Overrides.last overrides x = some v → ∃ origin,
        layers.reverse.findSome? (Layer.said · x.place) = some (.scalar origin (x.scalar v)) := by
  unfold Overrides.last
  induction h with
  | nil => exact ⟨fun _ => rfl, fun v hv => by cases hv⟩
  | @cons layer o layers overrides hsets _ ih =>
    simp only [List.reverse_cons, List.findSome?_append, List.findSome?_singleton]
    obtain ⟨hnone, hsome⟩ := ih
    cases hlater : overrides.reverse.findSome? (· x) with
    | some v =>
      obtain ⟨origin, hsaid⟩ := hsome v hlater
      refine ⟨fun hnever => absurd hnever (Option.some_ne_none v), ?_⟩
      intro v' hv'
      cases hv'
      exact ⟨origin, by rw [hsaid, Option.some_or]⟩
    | none =>
      rw [hnone hlater]
      simp only [Option.none_or]
      exact ⟨hsets.silent x, hsets.says_value x⟩

theorem plain_of_sets (h : List.Forall₂ Layer.Sets layers overrides) (x : ConfigPart) :
    ∀ layer ∈ layers, layer.Plain x.place := by
  induction h with
  | nil => exact fun _ h => absurd h List.not_mem_nil
  | cons hsets _ ih => exact List.forall_mem_cons.2 ⟨hsets.plain x, ih⟩

theorem forward_of_sets (h : List.Forall₂ Layer.Sets layers overrides) :
    ∀ layer ∈ layers, layer.CountsForward := by
  induction h with
  | nil => exact fun _ h => absurd h List.not_mem_nil
  | cons hsets _ ih => exact List.forall_mem_cons.2 ⟨hsets.forward, ih⟩

/-- Layers that set parts are read as a configuration, of which every part has the last value that it is
set to, or else its default. -/
theorem Config.exists_ofLayers (h : List.Forall₂ Layer.Sets layers overrides) :
    ∃ c, Config.ofLayers layers = .ok c ∧
      ∀ x : ConfigPart, c.get x = (Overrides.last overrides x).getD x.default := by
  let c : Config :=
    { schema :=
        { builtinSource := (Overrides.last overrides (.name .builtinSource)).getD (ConfigPart.default _)
          mutation := (Overrides.last overrides (.name .mutation)).getD (ConfigPart.default _)
          subscription := (Overrides.last overrides (.name .subscription)).getD (ConfigPart.default _) }
      rules :=
        { importsExist := (Overrides.last overrides (.switch .importsExist)).getD (ConfigPart.default _)
          importsAcyclic :=
            (Overrides.last overrides (.switch .importsAcyclic)).getD (ConfigPart.default _) } }
  have hc : ∀ x : ConfigPart, c.get x = (Overrides.last overrides x).getD x.default := by
    rintro (part | part) <;> cases part <;> rfl
  have hplain := plain_of_sets h
  obtain ⟨s, hs⟩ := Setting.exists_ofLayers (forward_of_sets h)
  refine ⟨c, Config.ofLayers_eq_ok_iff.2 ⟨s, hs, ?_⟩, hc⟩
  rw [Config.ofSetting_eq_ok_iff fun x => Setting.open_ofLayers (hplain x) hs]
  intro x
  rw [Setting.at?_ofLayers (hplain x) hs, hc]
  obtain ⟨hnone, hsome⟩ := said_of_sets h x
  cases hlast : Overrides.last overrides x with
  | none =>
    rw [hnone hlast]
    rfl
  | some v =>
    obtain ⟨origin, hsaid⟩ := hsome v hlast
    rw [hsaid]
    exact x.read_scalar origin v

end Layers

end SchemaRegistry
