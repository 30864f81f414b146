import SchemaRegistry.Config
import SchemaRegistry.Overlay
import SchemaRegistry.Disk

/-!
# Definition documents

A document lists definitions and descriptions in JSON. An entry that names a source is imported from it;
every other entry is built as it stands. `Document.resolve` turns the entries into definitions, all or
none: the first entry that names an unknown source decides.
-/

namespace SchemaRegistry

open Json (Codec Fault Member Members)

variable {m : Type → Type}

/-! ## Entries -/

/-- A definition as it is written in a document. -/
structure Entry where
  category : Category
  identifier : String
  name : String
  description : Option String := none
  fields : List Field := []
  interfaces : List String := []
  fieldImports : List FieldImport := []
  attrs : Attrs := ∅
  /-- The name of the source to import from. -/
  source : Option String := none
  file : Option String := none
  line : UInt32 := 0
  exported : Option Bool := none

/-- An entry is represented by all its members; only category, identifier and name have to be given. -/
def Entry.codec : Codec Entry :=
  Codec.record "RawDefinition"
    (.cons (.required "category" Category.codec) <|
      .cons (.required "identifier" .string) <|
      .cons (.required "name" .string) <|
      .cons (.optional "description" (.option .string) none) <|
      .cons (.optional "fields" (.list Field.codec) []) <|
      .cons (.optional "interfaces" (.list .string) []) <|
      .cons (.optional "field_imports" (.list FieldImport.codec) []) <|
      .cons (.optional "attrs" Attrs.codec ∅) <|
      .cons (.optional "source" (.option .string) none) <|
      .cons (.optional "file" (.option .string) none) <|
      .cons (.optional "line" .natural32 0) <|
      .cons (.optional "export" (.option .boolean) none) <| .nil)
    (fun (category, identifier, name, description, fields, interfaces, fieldImports, attrs, source,
        file, line, exported, _) =>
      ⟨category, identifier, name, description, fields, interfaces, fieldImports, attrs, source, file,
        line, exported⟩)
    (fun e => (e.category, e.identifier, e.name, e.description, e.fields, e.interfaces,
      e.fieldImports, e.attrs, e.source, e.file, e.line, e.exported, ()))

/-- A document. -/
structure Document where
  descriptions : Descriptions := ∅
  entries : List Entry := []

/-- A document is represented by its two parts, neither of which has to be given. -/
def Document.codec : Codec Document :=
  Codec.record "DefinitionDocument"
    (.cons (.optional "descriptions" (.map .string) ∅) <|
      .cons (.optional "definitions" (.list Entry.codec) []) <| .nil)
    (fun (descriptions, entries, _) => ⟨descriptions, entries⟩)
    (fun d => (d.descriptions, d.entries, ()))

/-! ## Resolving -/

/-- The sources that a document may name. -/
abbrev Sources (m : Type → Type) := SortedMap (Source m)

/-- The sources of a configuration: the built-in library under its configured name. -/
def Config.sources [Monad m] (c : Config) : Sources m :=
  SortedMap.empty.insert c.schema.builtinSource (BuiltinLibrary.source c.schema.builtinSource)

/-- Definitions and descriptions, ready to be assembled. -/
structure Loaded (m : Type → Type) where
  definitions : List (Definition m)
  descriptions : Descriptions

/-- Why a document does not give definitions. -/
inductive DocumentFault where
  /-- The text is not a document. -/
  | malformed (fault : Fault)
  /-- The text of a file is not a document. -/
  | invalid (path : String) (fault : Fault)
  /-- An entry names a source that there is not. -/
  | unknownSource (name : String)
  | unreadable (fault : DiskFault)

/-- The wording of a fault. -/
def DocumentFault.message : DocumentFault → String
  | .malformed fault => "JSON error: " ++ fault.message
  | .invalid path fault => "Invalid definition document: " ++ path ++ ": " ++ fault.message
  | .unknownSource name => "Unknown artifact source: " ++ name
  | .unreadable fault => "IO error: " ++ fault.message

/-- The definition of an entry; `file` is where it stands unless it says something else. -/
def Entry.resolve [Monad m] (sources : Sources m) (file : String) (e : Entry) :
    Except DocumentFault (Definition m) := do
  let origin : Origin m ← match e.source with
    | none => pure (.built Builder.plain)
    | some name =>
      match sources.get? name with
      | some source => pure (.imported source)
      | none => throw (.unknownSource name)
  return { category := e.category, identifier := e.identifier, name := e.name,
           description := e.description, fields := e.fields, interfaces := e.interfaces,
           fieldImports := e.fieldImports, attrs := e.attrs,
           location := ⟨e.file.getD file, e.line⟩, wish := ⟨e.exported⟩, origin }

namespace Document

/-- The definitions of all entries. -/
def resolve [Monad m] (sources : Sources m) (file : String) (d : Document) :
    Except DocumentFault (Loaded m) := do
  let definitions ← d.entries.mapM (Entry.resolve sources file)
  return ⟨definitions, d.descriptions⟩

/-- Reads a text as a document and resolves it. -/
def parse [Monad m] (sources : Sources m) (text : String) : Except DocumentFault (Loaded m) := do
  match codec.parse text with
  | .error fault => throw (.malformed fault)
  | .ok d => d.resolve sources "<document>"

/-- Reads the content of a file as a document and resolves it. -/
def parseFile [Monad m] (sources : Sources m) (path text : String) :
    Except DocumentFault (Loaded m) := do
  match codec.parse text with
  | .error fault => throw (.invalid path fault)
  | .ok d => d.resolve sources path

/-- Reads a file as a document and resolves it. -/
def load {n : Type → Type} [Monad n] [Monad m] (disk : Disk n) (sources : Sources m)
    (path : String) : n (Except DocumentFault (Loaded m)) := do
  match ← disk.readText path with
  | .error fault => return .error (.unreadable fault)
  | .ok text => return parseFile sources path text

end Document

end SchemaRegistry
