import SchemaRegistry.Json.Value
import SchemaRegistry.Text.Quoted

/-!
# What can be wrong with a JSON text

A `Fault` is the reason why a text or a value cannot be read as a given type: a fault of the syntax,
or a value of the wrong shape. `Fault.message` gives each its wording.
-/

namespace SchemaRegistry.Json

/-- Numbers in a text: a double has at least one digit after the point, and an exponent outside
`10 ^ -5` to `10 ^ 15`. -/
def Number.layout : Decimal.Layout := ⟨fun magnitude => -5 ≤ magnitude ∧ magnitude ≤ 15, true⟩

/-- The text of a number. -/
def Number.text : Number → String
  | .integer n _ => toString n
  | .float x => Number.layout.text x

/-- The value met where another was expected, as far as a message shows it. -/
inductive Found where
  | null
  | boolean (b : Bool)
  | number (n : Number)
  | text (s : String)
  | sequence
  | map

/-- The description of a value in a message. -/
def Found.message : Found → String
  | .null => "null"
  | .boolean b => "boolean `" ++ toString b ++ "`"
  | .number (.integer n h) => "integer `" ++ Number.text (.integer n h) ++ "`"
  | .number (.float x) => "floating point `" ++ Number.text (.float x) ++ "`"
  | .text s => "string " ++ Text.quoted s
  | .sequence => "sequence"
  | .map => "map"

/-- Why reading failed. -/
inductive Fault where
  /-- The text ends where a value should stand. -/
  | valueEnds
  /-- The text ends inside an array. -/
  | arrayEnds
  /-- The text ends inside an object. -/
  | objectEnds
  /-- The text ends inside a string. -/
  | stringEnds
  | expectedValue
  /-- Something begins like `true`, `false` or `null` and goes on differently. -/
  | expectedWord
  | expectedColon
  | expectedCommaOrBracket
  | expectedCommaOrBrace
  | keyNotString
  | trailingComma
  | trailingCharacters
  | invalidNumber
  /-- The number is too large for a double. -/
  | numberRange
  | invalidEscape
  | controlCharacter
  /-- A surrogate stands where a character or the first half of a pair should. -/
  | loneSurrogate
  /-- The first half of a surrogate pair is not followed by another escape. -/
  | cutSurrogate
  /-- Arrays and objects are nested too deeply. -/
  | nesting
  | invalidType (found : Found) (expected : String)
  | invalidValue (found : Found) (expected : String)
  | invalidLength (length : Nat) (expected : String)
  | missingField (key : String)
  | duplicateField (key : String)
  | unknownVariant (name : String) (expected : List String)

/-- The names a variant may have, as a message lists them. -/
def Fault.listVariants : List String → String
  | [] => "there are no variants"
  | [a] => "expected `" ++ a ++ "`"
  | [a, b] => "expected `" ++ a ++ "` or `" ++ b ++ "`"
  | names => "expected one of " ++ ", ".intercalate (names.map (fun n => "`" ++ n ++ "`"))

/-- The wording of a fault, up to where a message about a text goes on with the place in it: the line and the
column at which reading stopped are left out. -/
def Fault.message : Fault → String
  | .valueEnds => "EOF while parsing a value"
  | .arrayEnds => "EOF while parsing a list"
  | .objectEnds => "EOF while parsing an object"
  | .stringEnds => "EOF while parsing a string"
  | .expectedValue => "expected value"
  | .expectedWord => "expected ident"
  | .expectedColon => "expected `:`"
  | .expectedCommaOrBracket => "expected `,` or `]`"
  | .expectedCommaOrBrace => "expected `,` or `\x7d`"
  | .keyNotString => "key must be a string"
  | .trailingComma => "trailing comma"
  | .trailingCharacters => "trailing characters"
  | .invalidNumber => "invalid number"
  | .numberRange => "number out of range"
  | .invalidEscape => "invalid escape"
  | .controlCharacter => "control character (\\u0000-\\u001F) found while parsing a string"
  | .loneSurrogate => "lone leading surrogate in hex escape"
  | .cutSurrogate => "unexpected end of hex escape"
  | .nesting => "recursion limit exceeded"
  | .invalidType found expected => "invalid type: " ++ found.message ++ ", expected " ++ expected
  | .invalidValue found expected => "invalid value: " ++ found.message ++ ", expected " ++ expected
  | .invalidLength n expected => "invalid length " ++ toString n ++ ", expected " ++ expected
  | .missingField key => "missing field `" ++ key ++ "`"
  | .duplicateField key => "duplicate field `" ++ key ++ "`"
  | .unknownVariant name expected =>
    "unknown variant `" ++ name ++ "`, " ++ Fault.listVariants expected

end SchemaRegistry.Json
