import SchemaRegistry.Declaration

/-!
# Artifacts

An artifact is the finished form of a declared type or directive. It is either built from the
declaration by a `Builder` or taken over, by identifier, from a `Source` that already has it.

Building and taking over may have effects, which is why both take place in a monad `m`: a source may
note what has been asked of it, a builder may count its runs. Where nothing of the kind is wanted, `m` is
`Id`.
-/

namespace SchemaRegistry

open Json (Codec Member Members)

/-- The finished form of a type or directive. -/
structure Artifact where
  category : Category
  identifier : String
  name : String
  description : Option String
  fields : List Field
  interfaces : List String
  attrs : Attrs

namespace Artifact

/-- The first field with the given identifier. -/
def field? (a : Artifact) (identifier : String) : Option Field :=
  a.fields.find? (·.identifier == identifier)

/-- An artifact is represented by what it has: everything but category, identifier and name only if
there is any. -/
def codec : Codec Artifact :=
  Codec.record "Artifact"
    (.cons (.required "category" Category.codec) <|
      .cons (.required "identifier" .string) <|
      .cons (.required "name" .string) <|
      .cons (.omittable "description" (.option .string) none (·.isNone)) <|
      .cons (.omittable "fields" (.list Field.codec) [] (·.isEmpty)) <|
      .cons (.omittable "interfaces" (.list .string) [] (·.isEmpty)) <|
      .cons (.omittable "attrs" Attrs.codec ∅ (·.isEmpty)) <| .nil)
    (fun (category, identifier, name, description, fields, interfaces, attrs, _) =>
      ⟨category, identifier, name, description, fields, interfaces, attrs⟩)
    (fun a => (a.category, a.identifier, a.name, a.description, a.fields, a.interfaces, a.attrs, ()))

/-- The artifact that says exactly what a declaration says. -/
def ofDeclaration (d : Declaration) : Artifact :=
  ⟨d.category, d.identifier, d.name, d.description, d.fields, d.interfaces, d.attrs⟩

end Artifact

/-! ## Where artifacts come from -/

/-- Makes an artifact from a declaration. -/
abbrev Builder (m : Type → Type) := Declaration → m Artifact

/-- The builder that carries a declaration over unchanged. -/
def Builder.plain {m : Type → Type} [Monad m] : Builder m := fun d => pure (.ofDeclaration d)

/-- Something with a name that artifacts can be taken from by category and identifier. -/
structure Source (m : Type → Type) where
  name : String
  find : Category → String → m (Option Artifact)

/-- The source as it is shown. -/
def Source.text {m : Type → Type} (s : Source m) : String :=
  "Source \x7b name: " ++ Text.quoted s.name ++ " \x7d"

end SchemaRegistry
