import SchemaRegistry.Json.Record

/-!
# Declarations

What an author declares: a type or a directive, with its fields and the interfaces it has, the types it
takes fields from, and the place where all this was written. Every part has its representation in JSON
beside it.
-/

namespace SchemaRegistry

open Json (Codec Data Member Members)

/-! ## Categories and places -/

/-- What is declared. Types and directives are kept apart throughout. -/
inductive Category where
  | type
  | directive
deriving DecidableEq, Repr

namespace Category

/-- The word for the category. -/
def name : Category → String
  | .type => "type"
  | .directive => "directive"

/-- Both categories, types first. -/
def all : List Category := [.type, .directive]

/-- A category is represented by its word. -/
def codec : Codec Category := Codec.variant name all

end Category

/-- The place of a declaration. -/
structure Location where
  file : String := ""
  line : UInt32 := 0
deriving DecidableEq

namespace Location

/-- The place as it is shown. -/
def text (l : Location) : String := l.file ++ ":" ++ toString l.line.toNat

/-- A place is represented by its file and line. -/
def codec : Codec Location :=
  Codec.record "Location"
    (.cons (.required "file" .string) <| .cons (.required "line" .natural32) <| .nil)
    (fun (file, line, _) => ⟨file, line⟩)
    (fun l => (l.file, l.line, ()))

end Location

/-! ## Fields -/

/-- Further properties that an author attaches to a declaration or a field. -/
abbrev Attrs := SortedMap Data

/-- The representation of attributes. -/
def Attrs.codec : Codec Attrs := Codec.map .data

/-- What fires a field of the subscription type: the fields of the mutation type named here. -/
structure Trigger where
  /-- The identifiers of the mutation fields. -/
  mutations : SortedSet
  /-- Handed on as it is. -/
  config : Data

namespace Trigger

/-- Whether a mutation field fires the trigger. -/
def firesOn (t : Trigger) (mutationField : String) : Bool := t.mutations.contains mutationField

/-- A trigger is represented by its mutations and what it hands on, by default `null`. -/
def codec : Codec Trigger :=
  Codec.record "TriggerDeclaration"
    (.cons (.required "mutations" .set) <| .cons (.optional "config" .data .null) <| .nil)
    (fun (mutations, config, _) => ⟨mutations, config⟩)
    (fun t => (t.mutations, t.config, ()))

end Trigger

/-- A field of a type or an argument of a directive. -/
structure Field where
  identifier : String
  name : String
  description : Option String := none
  attrs : Attrs := ∅
  triggers : List Trigger := []

namespace Field

/-- A field is represented by what it has: a description, attributes and triggers only if there are
any. -/
def codec : Codec Field :=
  Codec.record "FieldDefinition"
    (.cons (.required "identifier" .string) <|
      .cons (.required "name" .string) <|
      .cons (.omittable "description" (.option .string) none (·.isNone)) <|
      .cons (.omittable "attrs" Attrs.codec ∅ (·.isEmpty)) <|
      .cons (.omittable "triggers" (.list Trigger.codec) [] (·.isEmpty)) <| .nil)
    (fun (identifier, name, description, attrs, triggers, _) =>
      ⟨identifier, name, description, attrs, triggers⟩)
    (fun f => (f.identifier, f.name, f.description, f.attrs, f.triggers, ()))

end Field

/-- The wish to have the fields of another type. -/
structure FieldImport where
  /-- The identifier of the type whose fields are taken. -/
  target : String
  /-- The identifiers of the fields that are not taken. -/
  except : List String := []
deriving DecidableEq

/-- A field import is represented by its target and, if there are any, its exceptions. -/
def FieldImport.codec : Codec FieldImport :=
  Codec.record "FieldImport"
    (.cons (.required "from" .string) <|
      .cons (.omittable "except" (.list .string) [] (·.isEmpty)) <| .nil)
    (fun (target, except, _) => ⟨target, except⟩)
    (fun i => (i.target, i.except, ()))

/-! ## Declarations -/

/-- Whether the author wants a declaration exported; without a wish the general rule decides. -/
structure ExportWish where
  exported : Option Bool := none
deriving DecidableEq

/-- A wish is represented only if there is one. -/
def ExportWish.codec : Codec ExportWish :=
  Codec.record "DeclarationOpts"
    (.cons (.omittable "export" (.option .boolean) none (·.isNone)) <| .nil)
    (fun (exported, _) => ⟨exported⟩)
    (fun w => (w.exported, ()))

/-- A declared type or directive. -/
structure Declaration where
  category : Category
  identifier : String
  /-- The name that is visible outside. -/
  name : String
  description : Option String := none
  fields : List Field := []
  /-- The identifiers of the interfaces. -/
  interfaces : List String := []
  fieldImports : List FieldImport := []
  attrs : Attrs := ∅
  location : Location := {}
  wish : ExportWish := {}

namespace Declaration

/-- Whether a type is declared. -/
def isType (d : Declaration) : Bool := d.category = .type

/-- The first field with the given identifier. -/
def field? (d : Declaration) (identifier : String) : Option Field :=
  d.fields.find? (·.identifier == identifier)

end Declaration

end SchemaRegistry
