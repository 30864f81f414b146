import SchemaRegistry.Registry.Lookup

/-!
# The built-in library

Scalars and directives that every schema can import. Definitions that are imported from it are not
exported unless their author asks for it.
-/

namespace SchemaRegistry.BuiltinLibrary

variable {m : Type → Type} [Monad m]

/-- The usual name of the library as a source. -/
def sourceName : String := "builtins"

/-- A scalar of the library. -/
def scalar (identifier name description : String) : Definition m :=
  { category := .type, identifier, name, description := some description,
    origin := .built Builder.plain }

/-- A directive of the library, with its only argument. -/
def directive (identifier description argument : String) : Definition m :=
  { category := .directive, identifier, name := identifier, description := some description,
    fields := [{ identifier := argument, name := argument }], origin := .built Builder.plain }

/-- What the library defines, scalars first. -/
def definitions : List (Definition m) :=
  [scalar "string" "String" "UTF-8 character sequence.",
   scalar "integer" "Int" "Signed 32-bit integer.",
   scalar "float" "Float" "Signed double-precision floating point value.",
   scalar "boolean" "Boolean" "`true` or `false`.",
   scalar "id" "ID" "Unique identifier, serialized as a string.",
   directive "include"
    ("Directs the executor to include this field or fragment only when the `if` argument is " ++
      "true.") "if",
   directive "skip"
    "Directs the executor to skip this field or fragment when the `if` argument is true." "if",
   directive "deprecated" "Marks an element of a schema as no longer supported." "reason"]

/-- The registry of the library. -/
def registry : Registry m := .ofDefinitions sourceName definitions []

/-- The library as a source. -/
def source (name : String) : Source m := registry.asSource name

end SchemaRegistry.BuiltinLibrary
