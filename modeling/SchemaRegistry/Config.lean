import SchemaRegistry.BuiltinLibrary

/-!
# Configuration

What can be set: the names of the special parts of a schema, and which of the built-in rules are run.
Everything has a default.
-/

namespace SchemaRegistry

open Json (Codec Member Members)

/-- The names of the special parts of a schema. -/
structure SchemaNames where
  /-- The name under which the built-in library is a source. -/
  builtinSource : String := BuiltinLibrary.sourceName
  /-- The identifier of the mutation type. -/
  mutation : String := "mutation"
  /-- The identifier of the subscription type. -/
  subscription : String := "subscription"
deriving DecidableEq

/-- Which of the built-in rules are run. -/
structure RuleSwitches where
  importsExist : Bool := true
  importsAcyclic : Bool := true
deriving DecidableEq

/-- The configuration of an assembly. -/
structure Config where
  schema : SchemaNames := {}
  rules : RuleSwitches := {}
deriving DecidableEq

namespace Config

/-- The representation of the names. -/
def schemaCodec : Codec SchemaNames :=
  Codec.record "SchemaConfig"
    (.cons (.optional "builtin_source" .string BuiltinLibrary.sourceName) <|
      .cons (.optional "mutation" .string "mutation") <|
      .cons (.optional "subscription" .string "subscription") <| .nil)
    (fun (builtinSource, mutation, subscription, _) => ⟨builtinSource, mutation, subscription⟩)
    (fun s => (s.builtinSource, s.mutation, s.subscription, ()))

/-- The representation of the switches. -/
def rulesCodec : Codec RuleSwitches :=
  Codec.record "RulesConfig"
    (.cons (.optional "field_imports_exist" .boolean true) <|
      .cons (.optional "no_circular_field_imports" .boolean true) <| .nil)
    (fun (importsExist, importsAcyclic, _) => ⟨importsExist, importsAcyclic⟩)
    (fun r => (r.importsExist, r.importsAcyclic, ()))

/-- A configuration is represented by its two sections. -/
def codec : Codec Config :=
  Codec.record "AssemblyConfig"
    (.cons (.optional "schema" schemaCodec {}) <|
      .cons (.optional "rules" rulesCodec {}) <| .nil)
    (fun (schema, rules, _) => ⟨schema, rules⟩)
    (fun c => (c.schema, c.rules, ()))

/-- The rules that are switched on, in their usual order. -/
def ruleList {m : Type → Type} (c : Config) : List (Rule m) :=
  (if c.rules.importsExist then [.importsExist] else []) ++
    if c.rules.importsAcyclic then [.importsAcyclic] else []

end Config

end SchemaRegistry
