import SchemaRegistry.Config
import SchemaRegistry.Config.SettingPath
import SchemaRegistry.Disk
import SchemaRegistry.Text.Quoted

/-!
# Settings as a configuration

`Config.ofSetting` reads a configuration from settings. What is not set keeps its default, and keys
without meaning are passed over. Truth values, numbers and texts are taken for each other as far as
possible; what is not possible is a `ConfigFault`.
-/

namespace SchemaRegistry

/-! ## Faults -/

/-- Why there is no configuration. -/
inductive ConfigFault where
  /-- A setting at a path is not what is expected there. -/
  | wrongType (found : Setting) (expected : String) (path : String)
  /-- Something that is neither a table nor a list stands for a section. -/
  | noSection (found : Setting) (expected : String)
  /-- A file that has to be there is not. -/
  | notFound (path : String)
  /-- The name of a file does not say how it is written. -/
  | unknownFormat (path : String)
  | unreadable (fault : DiskFault)
  /-- The content of a file is not well formed. -/
  | malformed (origin : String)
  /-- The key of a setting goes to an item before the first one of a list. -/
  | noSuchItem

namespace Scalar

/-- A value as it is shown in a finding. -/
def describe : Scalar → String
  | .nothing => "unit value"
  | .boolean b => "boolean `" ++ toString b ++ "`"
  | .integer n => "integer `" ++ toString n ++ "`"
  | .float x =>
    "floating point `" ++ (if x.isNaN ∨ x.isInf then plainLayout else shownLayout).text x ++ "`"
  | .text s => "string " ++ Text.quoted s

end Scalar

namespace Setting

/-- A setting as it is shown in a finding. -/
def describe : Setting → String
  | .scalar _ value => value.describe
  | .list _ _ => "sequence"
  | .table _ _ => "map"

/-- Where a setting comes from. -/
def origin? : Setting → Option String
  | .scalar origin _ => origin
  | .list origin _ => origin
  | .table origin _ => origin

end Setting

/-- The wording of a fault. -/
def ConfigFault.message : ConfigFault → String
  | .wrongType found expected path =>
    "invalid type: " ++ found.describe ++ ", expected " ++ expected ++ " for key `" ++ path ++ "`" ++
      match found.origin? with
      | some origin => " in " ++ origin
      | none => ""
  | .noSection found expected => "invalid type: " ++ found.describe ++ ", expected " ++ expected
  | .notFound path => "configuration file \"" ++ path ++ "\" not found"
  | .unknownFormat path =>
    "configuration file \"" ++ path ++ "\" is not of a registered file format"
  | .unreadable fault => fault.message
  | .malformed origin => "not well formed in " ++ origin
  | .noSuchItem => "a position lies before the beginning of its list"

/-! ## Single settings -/

namespace Setting

/-- Reads a text. -/
def readText (path : String) : Setting → Except ConfigFault String
  | .scalar origin value =>
    match value.toText? with
    | some s => .ok s
    | none => .error (.wrongType (.scalar origin value) "a string" path)
  | found => .error (.wrongType found "a string" path)

/-- Reads a truth value. A word that is none is shown in lower case. -/
def readBoolean (path : String) : Setting → Except ConfigFault Bool
  | .scalar origin (.text s) =>
    match (Scalar.text s).toBoolean? with
    | some b => .ok b
    | none => .error (.wrongType (.scalar origin (.text (Text.lowercase s))) "a boolean" path)
  | .scalar origin value =>
    match value.toBoolean? with
    | some b => .ok b
    | none => .error (.wrongType (.scalar origin value) "a boolean" path)
  | found => .error (.wrongType found "a boolean" path)

/-! ## Sections -/

/-- Checks that a setting can be a section. -/
def checkSection (expected : String) : Setting → Except ConfigFault Unit
  | .scalar origin value => .error (.noSection (.scalar origin value) expected)
  | _ => .ok ()

/-- Reads the member of a section that has the given key, or the given position if the section is a list;
a member that is not there has its default. -/
def readMember {α : Type} (read : String → Setting → Except ConfigFault α) (name : String)
    (position : Nat) (key : String) (absent : α) (s : Setting) : Except ConfigFault α :=
  match s with
  | .list _ items =>
    match items[position]? with
    | some item => read (name ++ "[" ++ toString position ++ "]") item
    | none => .ok absent
  | s =>
    match s.get? key with
    | some member => read (name ++ "." ++ key) member
    | none => .ok absent

end Setting

namespace SchemaNames

/-- Reads the names. -/
def ofSetting (s : Setting) : Except ConfigFault SchemaNames := do
  s.checkSection "struct SchemaConfig"
  let absent : SchemaNames := {}
  let builtinSource ←
    s.readMember Setting.readText "schema" 0 "builtin_source" absent.builtinSource
  let mutation ← s.readMember Setting.readText "schema" 1 "mutation" absent.mutation
  let subscription ← s.readMember Setting.readText "schema" 2 "subscription" absent.subscription
  return ⟨builtinSource, mutation, subscription⟩

end SchemaNames

namespace RuleSwitches

/-- Reads the switches. -/
def ofSetting (s : Setting) : Except ConfigFault RuleSwitches := do
  s.checkSection "struct RulesConfig"
  let absent : RuleSwitches := {}
  let importsExist ←
    s.readMember Setting.readBoolean "rules" 0 "field_imports_exist" absent.importsExist
  let importsAcyclic ←
    s.readMember Setting.readBoolean "rules" 1 "no_circular_field_imports" absent.importsAcyclic
  return ⟨importsExist, importsAcyclic⟩

end RuleSwitches

namespace Config

/-- Reads a configuration. -/
def ofSetting (s : Setting) : Except ConfigFault Config := do
  let schema ← match s.get? "schema" with
    | some part => SchemaNames.ofSetting part
    | none => pure {}
  let rules ← match s.get? "rules" with
    | some part => RuleSwitches.ofSetting part
    | none => pure {}
  return ⟨schema, rules⟩

/-- The configuration that layers give, each on top of those before it. -/
def ofLayers (layers : List Layer) : Except ConfigFault Config :=
  match Setting.ofLayers layers with
  | some s => ofSetting s
  | none => .error .noSuchItem

end Config

end SchemaRegistry
