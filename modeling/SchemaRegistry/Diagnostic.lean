import SchemaRegistry.Definition

/-!
# Diagnostics

What is wrong with a schema is collected, not thrown: each finding names the rule that is broken, the
place, and the thing that breaks it. `Diagnostic.text` and `Diagnostic.listing` show findings to a
reader, two lines each.
-/

namespace SchemaRegistry

open Json (Codec Member Members)

variable {m : Type → Type}

/-- The rules a schema has to follow. -/
inductive RuleKind where
  /-- Identifiers, and the names of types, are unique within their category. -/
  | uniqueNames
  /-- Fields are imported from types that exist. -/
  | importsExist
  /-- Types do not import fields from each other in a circle. -/
  | importsAcyclic
deriving DecidableEq, Repr

namespace RuleKind

/-- The name under which a rule is represented. -/
def name : RuleKind → String
  | .uniqueNames => "TypeNamesAreUnique"
  | .importsExist => "FieldImportsExist"
  | .importsAcyclic => "NoCircularFieldImports"

/-- All rules. -/
def all : List RuleKind := [.uniqueNames, .importsExist, .importsAcyclic]

/-- A rule is represented by its name. -/
def codec : Codec RuleKind := Codec.variant name all

/-- The code under which a rule is reported. -/
def code : RuleKind → String
  | .uniqueNames => "A001"
  | .importsExist => "A002"
  | .importsAcyclic => "A003"

/-- The rule in words. -/
def explanation : RuleKind → String
  | .uniqueNames =>
    "References to types and directives must be unique: each identifier and each type name may " ++
      "only be declared once."
  | .importsExist => "Fields can only be imported from types that are defined in the schema."
  | .importsAcyclic => "Types cannot import fields from each other in a cycle."

end RuleKind

/-- What a finding is about. -/
structure Culprit where
  /-- The kind of thing, such as "Type name". -/
  artifact : String
  /-- The identifier or name itself. -/
  value : String
deriving DecidableEq

/-- A culprit is represented by its kind and value. -/
def Culprit.codec : Codec Culprit :=
  Codec.record "ErrorData"
    (.cons (.required "artifact" .string) <| .cons (.required "value" .string) <| .nil)
    (fun (artifact, value, _) => ⟨artifact, value⟩)
    (fun c => (c.artifact, c.value, ()))

/-- A finding. -/
structure Diagnostic where
  rule : RuleKind
  location : Location
  culprit : Culprit
deriving DecidableEq

namespace Diagnostic

/-- A finding is represented by rule, place and culprit. -/
def codec : Codec Diagnostic :=
  Codec.record "ErrorRecord"
    (.cons (.required "rule" RuleKind.codec) <|
      .cons (.required "location" Location.codec) <|
      .cons (.required "data" Culprit.codec) <| .nil)
    (fun (rule, location, culprit, _) => ⟨rule, location, culprit⟩)
    (fun d => (d.rule, d.location, d.culprit, ()))

/-- A finding at the place of a definition. -/
def ofDefinition (rule : RuleKind) (d : Definition m) (artifact value : String) : Diagnostic :=
  ⟨rule, d.location, ⟨artifact, value⟩⟩

/-- The two lines of a finding. The value is quoted, so it cannot spread over lines. -/
def text (d : Diagnostic) : String :=
  "[" ++ d.rule.code ++ "] " ++ d.culprit.artifact ++ " " ++ Text.quoted d.culprit.value ++
    " is not valid (" ++ d.location.text ++ ")\n  - " ++ d.rule.explanation

/-- Findings, one after the other. -/
def listing (ds : List Diagnostic) : String := "\n".intercalate (ds.map text)

end Diagnostic

end SchemaRegistry
