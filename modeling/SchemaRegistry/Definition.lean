import SchemaRegistry.Artifact

/-!
# Definitions

A definition is a declaration together with the origin of its artifact. Definitions are what is checked
and registered.
-/

namespace SchemaRegistry

variable {m : Type → Type}

/-- Where the artifact of a definition comes from. -/
inductive Origin (m : Type → Type) where
  /-- The artifact of a source under the identifier of the definition. -/
  | imported (source : Source m)
  /-- An artifact that is built from the declaration. -/
  | built (builder : Builder m)

namespace Origin

/-- The name of the source of an import. -/
def sourceName? : Origin m → Option String
  | .imported source => some source.name
  | .built _ => none

/-- The origin as it is shown. -/
def text : Origin m → String
  | .imported source => "Import(" ++ Text.quoted source.name ++ ")"
  | .built _ => "Build"

end Origin

/-- A declared type or directive that waits to be registered. -/
structure Definition (m : Type → Type) extends Declaration where
  origin : Origin m

namespace Definition

/-- Whether the definition declares a type. -/
def isType (d : Definition m) : Bool := d.toDeclaration.isType

theorem isType_iff {d : Definition m} : d.isType = true ↔ d.category = .type :=
  decide_eq_true_iff

/-- Whether the definition is a type with the given identifier. -/
def isTypeNamed (identifier : String) (d : Definition m) : Bool :=
  d.isType && d.identifier == identifier

theorem isTypeNamed_iff {identifier : String} {d : Definition m} :
    d.isTypeNamed identifier = true ↔ d.isType = true ∧ d.identifier = identifier := by
  simp [isTypeNamed]

/-- The definition with other fields. -/
def withFields (d : Definition m) (fields : List Field) : Definition m := { d with fields }

/-- A definition is exported if its author wants that; without a wish, if it is not imported from the
built-in library. -/
def isExported (builtinSource : String) (d : Definition m) : Bool :=
  d.wish.exported.getD (d.origin.sourceName? != some builtinSource)

/-- The identifiers of the types among the definitions. -/
def typeIdentifiers (ds : List (Definition m)) : List String :=
  (ds.filter (·.isType)).map (·.identifier)

end Definition

end SchemaRegistry
