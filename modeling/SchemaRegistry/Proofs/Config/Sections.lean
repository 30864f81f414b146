import Mathlib
import SchemaRegistry.Config.Layers
import SchemaRegistry.Config.Saving
import SchemaRegistry.Proofs.Config.Reading
import SchemaRegistry.Proofs.Toml.Document

/-!
# How parts are set

Whatever parts are to be set to whatever values, there is a layer that sets just these: the sections of a
file (`sets_sections`), and the variables of the environment (`sets_asVariables`), in which names must not
look like truth values or numbers.

The sections are read from a document with the keys that are set (`readLayer?_toml`); a saved configuration
is the document in which all of them are set (`Config.toml_eq`).
-/

namespace SchemaRegistry

/-! ## Layers as they are written -/

/-- Truth values are read from variables as they are written. -/
theorem Scalar.ofVariable_toString (b : Bool) : Scalar.ofVariable (toString b) = .boolean b := by
  cases b <;> cbv

namespace ConfigPart

/-- All names. -/
def names : List ConfigPart := [.name .builtinSource, .name .mutation, .name .subscription]

/-- All switches. -/
def switches : List ConfigPart := [.switch .importsExist, .switch .importsAcyclic]

theorem mem_names (part : SchemaPart) : ConfigPart.name part ∈ names := by
  cases part <;> simp [names]

theorem mem_switches (part : RulePart) : ConfigPart.switch part ∈ switches := by
  cases part <;> simp [switches]

theorem mem_append (x : ConfigPart) : x ∈ names ++ switches := by
  cases x with
  | name part => exact List.mem_append_left _ (mem_names part)
  | switch part => exact List.mem_append_right _ (mem_switches part)

/-- The key under which a part is set at the outermost level. -/
def path : ConfigPart → String
  | .name .builtinSource => "schema.builtin_source"
  | .name .mutation => "schema.mutation"
  | .name .subscription => "schema.subscription"
  | .switch .importsExist => "rules.field_imports_exist"
  | .switch .importsAcyclic => "rules.no_circular_field_imports"

theorem ofKey_path (x : ConfigPart) :
    SettingPath.ofKey x.path = [.key x.place.table, .key x.place.key] := by
  rcases x with part | part <;> cases part <;> rfl

/-- The variable that sets a part. -/
def variableName : ConfigPart → String
  | .name .builtinSource => "ASSEMBLY__SCHEMA__BUILTIN_SOURCE"
  | .name .mutation => "ASSEMBLY__SCHEMA__MUTATION"
  | .name .subscription => "ASSEMBLY__SCHEMA__SUBSCRIPTION"
  | .switch .importsExist => "ASSEMBLY__RULES__FIELD_IMPORTS_EXIST"
  | .switch .importsAcyclic => "ASSEMBLY__RULES__NO_CIRCULAR_FIELD_IMPORTS"

theorem settingKey?_variableName (x : ConfigPart) : Environment.settingKey? x.variableName = some x.path := by
  rcases x with part | part <;> cases part <;> rfl

/-- A value as it is written in a variable. -/
def spelling : (x : ConfigPart) → x.Value → String
  | .name _ => fun s => s
  | .switch _ => fun b : Bool => toString b

theorem lowercase_table (x : ConfigPart) : Text.lowercase x.place.table = x.place.table := by
  rcases x with part | part <;> cases part <;> rfl

theorem lowercase_key (x : ConfigPart) : Text.lowercase x.place.key = x.place.key := by
  rcases x with part | part <;> cases part <;> rfl

/-- A part is known by its key. -/
theorem key_inj {x y : ConfigPart} (h : x.place.key = y.place.key) : x = y := by
  revert h
  rcases x with part | part <;> cases part <;> rcases y with part | part <;> cases part <;> decide

/-- What is written under the key of a part is said about this part alone. -/
theorem said_path (x y : ConfigPart) (s : Setting) :
    y.place.said (SettingPath.ofKey x.path) s = if x = y then some s else none := by
  rw [ofKey_path, SettingPlace.said, lowercase_table, lowercase_key]
  by_cases hxy : x = y
  · rw [if_pos hxy, if_pos (hxy ▸ ⟨rfl, rfl⟩)]
  · rw [if_neg hxy, if_neg fun hplace => hxy (key_inj hplace.2)]

theorem keeps_path (x : ConfigPart) (p : SettingPlace) (s : Setting) :
    p.Keeps (SettingPath.ofKey x.path) s := by
  rw [ofKey_path]
  trivial

theorem countsForward_path (x : ConfigPart) : (SettingPath.ofKey x.path).CountsForward := by
  rw [ofKey_path]
  exact (SettingPath.countsForward_nil.key _).key _

end ConfigPart

namespace Overrides

variable (origin : Option String) (o : Overrides)

/-- What is written for a part. -/
def setting (x : ConfigPart) : Option Setting := (o x).map fun v => .scalar origin (x.scalar v)

/-- The settings of some parts under their keys. -/
def entries (key : ConfigPart → String) (xs : List ConfigPart) : List (String × Setting) :=
  xs.filterMap fun x => (o.setting origin x).map fun s => (key x, s)

/-- If no other entry says something about a part, its own setting is found. -/
theorem findSome?_entries (key : ConfigPart → String) (said : String × Setting → Option Setting)
    {y : ConfigPart} (h : ∀ x s, said (key x, s) = if x = y then some s else none)
    (xs : List ConfigPart) :
    (o.entries origin key xs).reverse.findSome? said = if y ∈ xs then o.setting origin y else none := by
  induction xs with
  | nil => rfl
  | cons x rest ih =>
    have hrest : (o.entries origin key (x :: rest)).reverse.findSome? said =
        (if y ∈ rest then o.setting origin y else none).or
          (if x = y then o.setting origin x else none) := by
      rw [entries, List.filterMap_cons]
      cases hsetting : o.setting origin x with
      | none =>
        rw [Option.map_none, ite_self, Option.or_none]
        exact ih
      | some s =>
        rw [Option.map_some, List.reverse_cons, List.findSome?_append, List.findSome?_singleton, h]
        exact congrArg (Option.or · _) ih
    rw [hrest]
    by_cases hxy : x = y
    · subst hxy
      rw [if_pos rfl, if_pos List.mem_cons_self]
      split
      · exact Option.or_self
      · exact Option.none_or
    · rw [if_neg hxy, Option.or_none]
      simp [Ne.symm hxy]

theorem lastUnder_entries (xs : List ConfigPart) (y : ConfigPart) :
    Setting.lastUnder y.place.key (o.entries origin (·.place.key) xs) =
      if y ∈ xs then o.setting origin y else none := by
  refine o.findSome?_entries origin (·.place.key) _ (fun x s => ?_) xs
  simp only [ConfigPart.lowercase_key]
  by_cases hxy : x = y
  · rw [if_pos hxy, if_pos (hxy ▸ rfl)]
  · rw [if_neg hxy, if_neg fun hkey => hxy (ConfigPart.key_inj hkey)]

theorem setting_not_isTable {x : ConfigPart} {s : Setting} (h : o.setting origin x = some s) :
    ¬ s.IsTable := by
  obtain ⟨v, -, rfl⟩ := Option.map_eq_some_iff.1 h
  exact Setting.not_isTable_scalar origin (x.scalar v)

end Overrides

/-- A layer that says about every part what the overrides have for it. -/
theorem Layer.sets_of_said {layer : Layer} {o : Overrides} {origin : Option String}
    (hforward : layer.CountsForward) (hplain : ∀ x : ConfigPart, layer.Plain x.place)
    (hsaid : ∀ x : ConfigPart, layer.said x.place = o.setting origin x) : layer.Sets o where
  forward := hforward
  plain := hplain
  silent x hx := by rw [hsaid, Overrides.setting, hx, Option.map_none]
  says_value x v hx := ⟨origin, by rw [hsaid, Overrides.setting, hx, Option.map_some]⟩

namespace Overrides

variable (origin : Option String) (o : Overrides)

/-- The layer of a file with both sections, each with the keys that are set. -/
def sections : Layer :=
  [("rules", .table origin (o.entries origin (·.place.key) ConfigPart.switches)),
    ("schema", .table origin (o.entries origin (·.place.key) ConfigPart.names))]

theorem said_section (key : String) (hkey : SettingPath.ofKey key = [.key key])
    (hlower : Text.lowercase key = key) (xs : List ConfigPart) (x : ConfigPart) :
    x.place.said (SettingPath.ofKey key) (.table origin (o.entries origin (·.place.key) xs)) =
      if key = x.place.table ∧ x ∈ xs then o.setting origin x else none := by
  rw [hkey, SettingPlace.said, hlower, lastUnder_entries]
  by_cases htable : key = x.place.table <;> simp [htable]

theorem plain_section (key : String) (hkey : SettingPath.ofKey key = [.key key])
    (hlower : Text.lowercase key = key) (xs : List ConfigPart) (x : ConfigPart) :
    x.place.Plain (SettingPath.ofKey key) (.table origin (o.entries origin (·.place.key) xs)) where
  keeps := by
    rw [hkey]
    trivial
  not_isTable s hs := by
    rw [o.said_section origin key hkey hlower] at hs
    split at hs
    · exact o.setting_not_isTable origin hs
    · cases hs

theorem sets_sections : (o.sections origin).Sets o := by
  apply Layer.sets_of_said
  · have hkey : ∀ key, SettingPath.ofKey key = [.key key] → (SettingPath.ofKey key).CountsForward :=
      fun key h => h ▸ SettingPath.countsForward_nil.key key
    exact List.forall_mem_cons.2 ⟨hkey "rules" rfl, List.forall_mem_singleton.2 (hkey "schema" rfl)⟩
  · intro x
    have hschema := o.plain_section origin "schema" rfl rfl ConfigPart.names x
    have hrules := o.plain_section origin "rules" rfl rfl ConfigPart.switches x
    exact List.forall_mem_cons.2 ⟨hrules, List.forall_mem_singleton.2 hschema⟩
  · intro x
    have hschema := o.said_section origin "schema" rfl rfl ConfigPart.names x
    have hrules := o.said_section origin "rules" rfl rfl ConfigPart.switches x
    have hnone : Layer.said [] x.place = none := rfl
    rw [sections, Layer.said_cons, Layer.said_cons, hrules, hschema, hnone, Option.none_or]
    cases x with
    | name part =>
      rw [ConfigPart.table_name, if_pos ⟨rfl, ConfigPart.mem_names part⟩,
        if_neg fun h => absurd h.1 (by decide), Option.or_none]
    | switch part =>
      rw [ConfigPart.table_switch, if_neg fun h => absurd h.1 (by decide), Option.none_or,
        if_pos ⟨rfl, ConfigPart.mem_switches part⟩]

/-- The variables for the parts that are set. -/
def asVariables : List (String × String) :=
  (ConfigPart.names ++ ConfigPart.switches).filterMap fun x =>
    (o x).map fun v => (x.variableName, x.spelling v)

variable {o}

theorem layer_asVariables
    (h : ∀ (part : SchemaPart) (s : String), o (.name part) = some s → Scalar.ofVariable s = .text s)
    (userFile : Option String) :
    Environment.layer ⟨o.asVariables, userFile⟩ =
      o.entries Environment.origin ConfigPart.path (ConfigPart.names ++ ConfigPart.switches) := by
  rw [Environment.layer, asVariables, List.filterMap_filterMap, entries]
  apply List.filterMap_congr
  intro x _
  rw [setting]
  cases hx : o x with
  | none => rfl
  | some v =>
    have hscalar : Scalar.ofVariable (x.spelling v) = x.scalar v := by
      cases x with
      | name part => exact h part v hx
      | switch part => exact Scalar.ofVariable_toString v
    simp only [Option.map_some, Option.bind_some, ConfigPart.settingKey?_variableName, hscalar]

/-- Variables set the parts whose values they hold, as long as no name reads as a truth value or a
number. -/
theorem sets_asVariables
    (h : ∀ (part : SchemaPart) (s : String), o (.name part) = some s → Scalar.ofVariable s = .text s)
    (userFile : Option String) : (Environment.layer ⟨o.asVariables, userFile⟩).Sets o := by
  rw [layer_asVariables h]
  apply Layer.sets_of_said
  · intro e he
    obtain ⟨x, -, he⟩ := List.mem_filterMap.1 he
    obtain ⟨s, -, rfl⟩ := Option.map_eq_some_iff.1 he
    exact x.countsForward_path
  · intro y e he
    obtain ⟨x, -, he⟩ := List.mem_filterMap.1 he
    obtain ⟨s, hs, rfl⟩ := Option.map_eq_some_iff.1 he
    refine ⟨x.keeps_path y.place s, ?_⟩
    intro s' hs'
    rw [ConfigPart.said_path] at hs'
    split at hs'
    · cases hs'
      exact o.setting_not_isTable _ hs
    · cases hs'
  · intro y
    have hfound := o.findSome?_entries Environment.origin ConfigPart.path
      (fun e => y.place.said (SettingPath.ofKey e.1) e.2) (fun x s => x.said_path y s)
      (ConfigPart.names ++ ConfigPart.switches)
    rw [if_pos y.mem_append] at hfound
    exact hfound

end Overrides

/-! ## Documents -/

open Toml (printString printBoolean printTable)

namespace ConfigPart

/-- The value of a part in a document. -/
def value : (x : ConfigPart) → x.Value → Toml.Value
  | .name _ => Toml.Value.text
  | .switch _ => Toml.Value.boolean

/-- The value of a part as it is written in a document. -/
def printed : (x : ConfigPart) → x.Value → List Char
  | .name _ => printString
  | .switch _ => printBoolean

theorem isBareKey_key (x : ConfigPart) : Toml.IsBareKey x.place.key := by
  rcases x with part | part <;> cases part <;> decide

theorem written_printed (x : ConfigPart) (v : x.Value) : Toml.Written (x.printed v) (x.value v) := by
  cases x with
  | name part => exact Toml.written_printString v
  | switch part => exact Toml.written_printBoolean v

theorem ofToml_value (x : ConfigPart) (origin : String) (v : x.Value) :
    Setting.ofToml origin (x.value v) = .scalar origin (x.scalar v) := by
  cases x <;> rfl

end ConfigPart

namespace Overrides

variable (origin : String) (o : Overrides)

/-- The lines for some parts. -/
def lines (xs : List ConfigPart) : List (String × List Char) :=
  xs.filterMap fun x => (o x).map fun v => (x.place.key, x.printed v)

/-- The members that these lines set. -/
def values (xs : List ConfigPart) : List (String × Toml.Value) :=
  xs.filterMap fun x => (o x).map fun v => (x.place.key, x.value v)

/-- A document with both sections, each with the keys that are set. -/
def toml : String :=
  String.ofList (printTable "schema" (o.lines ConfigPart.names) ++
    '\n' :: printTable "rules" (o.lines ConfigPart.switches))

theorem lines_set_values (xs : List ConfigPart) :
    List.Forall₂ Toml.Sets (o.lines xs) (o.values xs) := by
  induction xs with
  | nil => exact .nil
  | cons x rest ih =>
    rw [lines, values, List.filterMap_cons, List.filterMap_cons, ← lines, ← values]
    cases o x with
    | none => exact ih
    | some v => exact .cons ⟨rfl, x.isBareKey_key, x.written_printed v⟩ ih

theorem length_values_le (xs : List ConfigPart) : (o.values xs).length ≤ xs.length :=
  List.length_filterMap_le _ _

/-- The members stand in key order if the parts do. -/
theorem pairwise_values {xs : List ConfigPart} (h : (xs.map (·.place.key)).Pairwise (· < ·)) :
    ((o.values xs).map (·.1)).Pairwise (· < ·) := by
  have hsublist : ((o.values xs).map (·.1)).Sublist (xs.map (·.place.key)) := by
    induction xs with
    | nil => exact .slnil
    | cons x rest ih =>
      have hrest := ih (List.pairwise_cons.1 h).2
      rw [values, List.filterMap_cons, ← values]
      cases o x with
      | none => exact hrest.cons _
      | some v => exact hrest.cons_cons _
  exact h.sublist hsublist

/-- The statements of the document. -/
def statements : List Toml.Statement :=
  .openTable ⟨[], "schema"⟩ ::
    ((o.values ConfigPart.names).map (fun e => .assign ⟨[], e.1⟩ e.2) ++
      .openTable ⟨[], "rules"⟩ ::
        ((o.values ConfigPart.switches).map (fun e => .assign ⟨[], e.1⟩ e.2) ++ []))

theorem readStatements_toml (bound : Nat) :
    Toml.readStatements (bound + (o.values ConfigPart.switches).length + 1 +
      (o.values ConfigPart.names).length + 1) o.toml.toList = some o.statements := by
  have hend : Toml.readStatements bound [] = some [] := by cases bound <;> rfl
  have hnothing : Toml.skipSpace false [] = some [] := rfl
  have hrules := Toml.readStatements_printTable (by decide : Toml.IsBareKey "rules")
    (o.lines_set_values ConfigPart.switches) hnothing hend
  rw [List.append_nil] at hrules
  rw [toml, String.toList_ofList]
  exact Toml.readStatements_printTable (by decide) (o.lines_set_values ConfigPart.names) rfl hrules

/-- The statements build the tables of the document. -/
theorem run_statements :
    Toml.run [] o.statements [] =
      some [("rules", .table .headed (Toml.Draft.ofEntries (o.values ConfigPart.switches))),
        ("schema", .table .headed (Toml.Draft.ofEntries (o.values ConfigPart.names)))] := by
  have hnames : ((o.values ConfigPart.names).map (·.1)).Pairwise (· < ·) :=
    o.pairwise_values (by decide)
  have hswitches : ((o.values ConfigPart.switches).map (·.1)).Pairwise (· < ·) :=
    o.pairwise_values (by decide)
  rw [statements, Toml.run_table rfl hnames, Toml.run_table rfl hswitches]
  rfl

theorem readDocument?_toml :
    Toml.readDocument? o.toml =
      some [("rules", .table (o.values ConfigPart.switches)),
        ("schema", .table (o.values ConfigPart.names))] := by
  have hnames : (o.values ConfigPart.names).length ≤ 3 := o.length_values_le _
  have hswitches : (o.values ConfigPart.switches).length ≤ 2 := o.length_values_le _
  have hlength : (o.values ConfigPart.switches).length + 1 + (o.values ConfigPart.names).length + 1 ≤
      o.toml.toList.length := by
    rw [toml, String.toList_ofList, Toml.printTable_eq]
    simp
    omega
  obtain ⟨bound, hbound⟩ := Nat.exists_eq_add_of_le' hlength
  have hstatements : Toml.readStatements o.toml.toList.length o.toml.toList = some o.statements := by
    rw [hbound]
    simpa only [Nat.add_assoc] using o.readStatements_toml bound
  obtain ⟨cs, hcs⟩ : ∃ cs, o.toml.toList = '[' :: cs := ⟨_, by rw [toml, String.toList_ofList]; rfl⟩
  rw [Toml.readDocument?_of_header hcs hstatements o.run_statements]
  simp only [Toml.Draft.finish, Toml.finishMembers, Toml.Node.finish, Toml.finishMembers_ofEntries]

theorem ofToml_values (xs : List ConfigPart) :
    Layer.ofToml origin (o.values xs) = o.entries origin (·.place.key) xs := by
  induction xs with
  | nil => rfl
  | cons x rest ih =>
    rw [values, entries, List.filterMap_cons, List.filterMap_cons, ← values, ← entries, setting]
    cases o x with
    | none => exact ih
    | some v =>
      simp only [Option.map_some, Layer.ofToml, ih, x.ofToml_value]

/-- The document is read as its sections. -/
theorem readLayer?_toml : FileFormat.toml.readLayer? origin o.toml = some (o.sections origin) := by
  rw [FileFormat.readLayer?, readDocument?_toml, Option.map_some, sections]
  simp only [Layer.ofToml, Setting.ofToml, ofToml_values]

end Overrides

end SchemaRegistry
