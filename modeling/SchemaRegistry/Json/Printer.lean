import SchemaRegistry.Json.Value
import SchemaRegistry.Json.Fault
import SchemaRegistry.Text.Hexadecimal

/-!
# Printing JSON

Two layouts of the same tokens: the compact one has no blank at all, the pretty one has a line for each
item and member, indented by two blanks for each level.

In a string only the quote, the backslash and the controls below U+0020 are escaped, the controls by a
letter where there is one.
-/

namespace SchemaRegistry.Json

open Text (hexDigit)

/-- The written form of a character of a string. -/
def escapeChar (c : Char) : List Char :=
  if c = '"' then ['\\', '"']
  else if c = '\\' then ['\\', '\\']
  else if c = '\x08' then ['\\', 'b']
  else if c = '\x0c' then ['\\', 'f']
  else if c = '\n' then ['\\', 'n']
  else if c = '\r' then ['\\', 'r']
  else if c = '\t' then ['\\', 't']
  else if c < ' ' then ['\\', 'u', '0', '0', hexDigit (c.toNat / 16), hexDigit c.toNat]
  else [c]

/-- A string in its quotes. -/
def printString (s : String) : List Char := '"' :: s.toList.flatMap escapeChar ++ ['"']

/-- The text of a number. A double that is no number has no text of its own. -/
def Number.print : Number → List Char
  | .integer n _ => (toString n).toList
  | .float x => if x.isNaN ∨ x.isInf then ['n', 'u', 'l', 'l'] else (Number.layout.text x).toList

namespace Value

/-- The text of a boolean. -/
def printBoolean (b : Bool) : List Char :=
  if b then ['t', 'r', 'u', 'e'] else ['f', 'a', 'l', 's', 'e']

/-! ## Compact -/

mutual

/-- The characters of a value without blanks. -/
def print : Value → List Char
  | .null => ['n', 'u', 'l', 'l']
  | .boolean b => printBoolean b
  | .number n => n.print
  | .text s => printString s
  | .array [] => ['[', ']']
  | .array (v :: rest) => '[' :: print v ++ printItems rest
  | .object [] => ['\x7b', '\x7d']
  | .object ((k, v) :: rest) => '\x7b' :: printString k ++ ':' :: print v ++ printMembers rest

/-- The items of an array after the first, each after its comma, and the closing bracket. -/
def printItems : List Value → List Char
  | [] => [']']
  | v :: rest => ',' :: print v ++ printItems rest

/-- The members of an object after the first, each after its comma, and the closing brace. -/
def printMembers : List (String × Value) → List Char
  | [] => ['\x7d']
  | (k, v) :: rest => ',' :: printString k ++ ':' :: print v ++ printMembers rest

end

/-! ## Pretty -/

/-- A new line, indented for the given level. -/
def newLine (level : Nat) : List Char := '\n' :: List.replicate (2 * level) ' '

mutual

/-- The characters of a value over several lines, the value itself standing at the given level. -/
def printLines (level : Nat) : Value → List Char
  | .null => ['n', 'u', 'l', 'l']
  | .boolean b => printBoolean b
  | .number n => n.print
  | .text s => printString s
  | .array [] => ['[', ']']
  | .array (v :: rest) =>
    '[' :: newLine (level + 1) ++ printLines (level + 1) v ++ printItemLines level rest
  | .object [] => ['\x7b', '\x7d']
  | .object ((k, v) :: rest) =>
    '\x7b' :: newLine (level + 1) ++ printString k ++ ':' :: ' ' :: printLines (level + 1) v ++
      printMemberLines level rest

/-- The items of an array after the first and the closing bracket, the array standing at the given
level. -/
def printItemLines (level : Nat) : List Value → List Char
  | [] => newLine level ++ [']']
  | v :: rest =>
    ',' :: newLine (level + 1) ++ printLines (level + 1) v ++ printItemLines level rest

/-- The members of an object after the first and the closing brace, the object standing at the given
level. -/
def printMemberLines (level : Nat) : List (String × Value) → List Char
  | [] => newLine level ++ ['\x7d']
  | (k, v) :: rest =>
    ',' :: newLine (level + 1) ++ printString k ++ ':' :: ' ' :: printLines (level + 1) v ++
      printMemberLines level rest

end

/-- The text of a value without blanks. -/
def compact (v : Value) : String := String.ofList v.print

/-- The text of a value over several lines. -/
def pretty (v : Value) : String := String.ofList (printLines 0 v)

end Value

end SchemaRegistry.Json
