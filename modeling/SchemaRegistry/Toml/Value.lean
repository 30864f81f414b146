/-!
# TOML values

What can stand under a key of a TOML document. A date or a time is kept as its text in normal form.
-/

namespace SchemaRegistry.Toml

/-- A TOML value. -/
inductive Value where
  | text (s : String)
  | integer (n : Int)
  | float (x : Float)
  | boolean (b : Bool)
  /-- A date, a time of day, or both. -/
  | moment (text : String)
  | array (items : List Value)
  | table (members : List (String × Value))

instance : Inhabited Value := ⟨.boolean false⟩

/-- A reader takes a value off the front of a text. A text that does not begin with one is refused
without saying why. -/
abbrev Reader (α : Type) := List Char → Option (α × List Char)

/-- The characters that may stand between the words of a line. -/
def isBlank (c : Char) : Bool := c = ' ' ∨ c = '\t'

/-- The controls that may stand nowhere as they are; line ends count among them. -/
def isControl (c : Char) : Bool := (c < ' ' ∧ c ≠ '\t') ∨ c = '\x7f'

end SchemaRegistry.Toml
