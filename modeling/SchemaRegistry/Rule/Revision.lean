import SchemaRegistry.Rule

/-!
# Rules that revise

Rules that do not look for faults but change what is handed on: they take definitions out, turn their
order around, and take findings back or add one.
-/

namespace SchemaRegistry.Rule

variable {m : Type → Type}

/-- Leaves out all definitions with the given identifiers. -/
def leavingOut (name : String) (identifiers : List String) : Rule m where
  name
  check c := { c with definitions := c.definitions.filter (!identifiers.contains ·.identifier) }

/-- Turns the order of the definitions around. -/
def reversing (name : String) : Rule m where
  name
  check c := { c with definitions := c.definitions.reverse }

/-- Takes all findings so far back. -/
def forgetting (name : String) : Rule m where
  name
  check c := { c with diagnostics := [] }

/-- Adds a finding. -/
def reporting (name : String) (finding : Diagnostic) : Rule m where
  name
  check c := { c with diagnostics := c.diagnostics ++ [finding] }

/-- Hands everything on as it is. -/
def idle (name : String) : Rule m where
  name
  check c := c

/-- The names of rules, as they are shown. -/
def listing (rules : List (Rule m)) : String :=
  "[" ++ ", ".intercalate (rules.map (Text.quoted ·.name)) ++ "]"

end SchemaRegistry.Rule
