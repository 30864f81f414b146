import SchemaRegistry.Toml.Value
import SchemaRegistry.Text.Hexadecimal

/-!
# Strings in TOML

A string stands between quotes or between apostrophes, one of them or three on each side. Between quotes
a backslash marks what cannot stand as it is; between apostrophes everything stands for itself. Three
marks on each side allow line ends, and up to two of the mark itself in a row.

`readString` walks through a string character by character; `StringState` is what it has to remember.
`printString` chooses, of the forms that can hold a text, the first in a fixed order.
-/

namespace SchemaRegistry.Toml

open Text (hexDigit hexValue?)

/-! ## Forms -/

/-- How a string is enclosed. -/
structure StringForm where
  /-- A backslash marks escapes, and the enclosing mark is a quote; otherwise it is an apostrophe. -/
  escapes : Bool
  /-- Three marks on each side. -/
  multiline : Bool
deriving DecidableEq

namespace StringForm

/-- The enclosing mark. -/
def mark (f : StringForm) : Char := if f.escapes then '"' else '\''

/-- What stands at the beginning and at the end. -/
def fence (f : StringForm) : List Char := List.replicate (if f.multiline then 3 else 1) f.mark

end StringForm

/-! ## Reading -/

/-- What has been read of a string that the next character may belong to. -/
inductive StringState where
  | plain
  /-- Marks in a row, at least one. -/
  | marks (count : Nat)
  | backslash
  /-- A code point of which some digits are missing. -/
  | code (missing : Nat) (value : Nat)
  /-- A backslash at the end of a line, and the blanks and line ends after it. -/
  | gap (lineEnded : Bool)
  /-- A carriage return; the line end has to follow, in a gap or in the text. -/
  | carriage (inGap : Bool)

/-- What a character does. -/
inductive StringStep where
  /-- The text goes on, by these characters. -/
  | proceed (written : List Char) (next : StringState)
  /-- The character is the end of the string. -/
  | stop
  /-- The string ended before the character, with these characters. -/
  | stopBefore (written : List Char)
  | refuse

/-- Puts characters in front of those that a step adds. -/
def StringStep.after (cs : List Char) : StringStep → StringStep
  | .proceed written next => .proceed (cs ++ written) next
  | .stopBefore written => .stopBefore (cs ++ written)
  | step => step

/-- The character that a letter after a backslash stands for. -/
def escapedChar? : Char → Option Char
  | '"' => some '"'
  | '\\' => some '\\'
  | 'b' => some '\x08'
  | 't' => some '\t'
  | 'n' => some '\n'
  | 'f' => some '\x0c'
  | 'r' => some '\r'
  | _ => none

/-- The character with a code point, if there is one. -/
def charOfCode? (n : Nat) : Option Char :=
  if h : n.isValidChar then some (Char.ofNatAux n h) else none

namespace StringForm

/-- What a character does after plain text. -/
def plainStep (f : StringForm) (c : Char) : StringStep :=
  if c = f.mark then if f.multiline then .proceed [] (.marks 1) else .stop
  else if f.escapes ∧ c = '\\' then .proceed [] .backslash
  else if f.multiline ∧ c = '\n' then .proceed ['\n'] .plain
  else if f.multiline ∧ c = '\r' then .proceed [] (.carriage false)
  else if isControl c then .refuse
  else .proceed [c] .plain

/-- What a character does after some marks in a row. Three of them end the string; up to two more before
these belong to the text. -/
def markStep (f : StringForm) (count : Nat) (c : Char) : StringStep :=
  if c = f.mark ∧ count < 5 then .proceed [] (.marks (count + 1))
  else if 3 ≤ count then .stopBefore (List.replicate (count - 3) f.mark)
  else (f.plainStep c).after (List.replicate count f.mark)

/-- What a character does after a backslash. -/
def escapeStep (f : StringForm) (c : Char) : StringStep :=
  match escapedChar? c with
  | some written => .proceed [written] .plain
  | none =>
    if c = 'u' then .proceed [] (.code 4 0)
    else if c = 'U' then .proceed [] (.code 8 0)
    else if f.multiline ∧ isBlank c then .proceed [] (.gap false)
    else if f.multiline ∧ c = '\n' then .proceed [] (.gap true)
    else if f.multiline ∧ c = '\r' then .proceed [] (.carriage true)
    else .refuse

/-- What a character does in a code point. -/
def codeStep (missing value : Nat) (c : Char) : StringStep :=
  match hexValue? c with
  | none => .refuse
  | some digit =>
    let value := 16 * value + digit
    if 1 < missing then .proceed [] (.code (missing - 1) value)
    else match charOfCode? value with
      | some written => .proceed [written] .plain
      | none => .refuse

/-- What a character does in a gap, which goes to the next character that is neither blank nor line
end. -/
def gapStep (f : StringForm) (lineEnded : Bool) (c : Char) : StringStep :=
  if isBlank c then .proceed [] (.gap lineEnded)
  else if c = '\n' then .proceed [] (.gap true)
  else if c = '\r' then .proceed [] (.carriage true)
  else if lineEnded then f.plainStep c
  else .refuse

/-- What a character does. -/
def step (f : StringForm) : StringState → Char → StringStep
  | .plain, c => f.plainStep c
  | .marks count, c => f.markStep count c
  | .backslash, c => f.escapeStep c
  | .code missing value, c => codeStep missing value c
  | .gap lineEnded, c => f.gapStep lineEnded c
  | .carriage inGap, c =>
    if c ≠ '\n' then .refuse
    else if inGap then .proceed [] (.gap true)
    else .proceed ['\n'] .plain

/-- Reads a string after its opening marks. -/
def readBody (f : StringForm) : StringState → Reader (List Char)
  | .marks count, [] => if 3 ≤ count then some (List.replicate (count - 3) f.mark, []) else none
  | _, [] => none
  | state, c :: rest =>
    match f.step state c with
    | .proceed written next => do
      let (text, rest) ← readBody f next rest
      return (written ++ text, rest)
    | .stop => some ([], rest)
    | .stopBefore written => some (written, c :: rest)
    | .refuse => none

end StringForm

/-- Drops the line end right after the opening marks, which does not belong to the text. -/
def dropLineEnd : List Char → List Char
  | '\n' :: rest => rest
  | '\r' :: '\n' :: rest => rest
  | rest => rest

/-- Reads a string that stands on one line. -/
def readLineString : Reader String
  | '"' :: rest => do
    let (text, rest) ← StringForm.readBody ⟨true, false⟩ .plain rest
    return (String.ofList text, rest)
  | '\'' :: rest => do
    let (text, rest) ← StringForm.readBody ⟨false, false⟩ .plain rest
    return (String.ofList text, rest)
  | _ => none

/-- Reads a string. -/
def readString : Reader String
  | '"' :: '"' :: '"' :: rest => do
    let (text, rest) ← StringForm.readBody ⟨true, true⟩ .plain (dropLineEnd rest)
    return (String.ofList text, rest)
  | '\'' :: '\'' :: '\'' :: rest => do
    let (text, rest) ← StringForm.readBody ⟨false, true⟩ .plain (dropLineEnd rest)
    return (String.ofList text, rest)
  | cs => readLineString cs

/-! ## Writing -/

/-- Whether `count` of the given mark stand in a row somewhere, `seen` of them having been met. -/
def hasRun (mark : Char) (count seen : Nat) : List Char → Bool
  | [] => count ≤ seen
  | c :: rest =>
    count ≤ seen || hasRun mark count (if c = mark then seen + 1 else 0) rest

/-- Whether a form can hold a text as it stands. -/
def StringForm.suits (f : StringForm) (cs : List Char) : Bool :=
  !cs.any (fun c => c ≠ '\n' ∧ isControl c) &&
  !(f.escapes && cs.contains '\\') &&
  if f.multiline then !hasRun f.mark 3 0 cs else !cs.contains f.mark && !cs.contains '\n'

/-- The forms in the order of preference. -/
def StringForm.preferred : List StringForm :=
  [⟨true, false⟩, ⟨false, false⟩, ⟨true, true⟩, ⟨false, true⟩]

/-- The form in which a text is written. A text that no form can hold as it stands needs escapes. -/
def StringForm.ofText (cs : List Char) : StringForm :=
  (preferred.find? (·.suits cs)).getD ⟨true, cs.contains '\n'⟩

/-- A hexadecimal digit in upper case. -/
def upperHexDigit (n : Nat) : Char := (hexDigit n).toUpper

/-- The written form of a character other than a quote where escapes are possible. -/
def escapeChar (multiline : Bool) (c : Char) : List Char :=
  if c = '\\' then ['\\', '\\']
  else if c = '\x08' then ['\\', 'b']
  else if c = '\t' then ['\\', 't']
  else if c = '\x0c' then ['\\', 'f']
  else if c = '\r' then ['\\', 'r']
  else if c = '\n' then if multiline then ['\n'] else ['\\', 'n']
  else if isControl c then
    ['\\', 'u', '0', '0', upperHexDigit (c.toNat / 16), upperHexDigit c.toNat]
  else [c]

/-- A text with its escapes, `quotes` in a row having been written as they are. On one line every quote is
escaped, otherwise the third in a row. -/
def escapeText (multiline : Bool) (quotes : Nat) : List Char → List Char
  | [] => []
  | c :: rest =>
    if c = '"' then
      if multiline ∧ quotes < 2 then '"' :: escapeText multiline (quotes + 1) rest
      else '\\' :: '"' :: escapeText multiline 0 rest
    else escapeChar multiline c ++ escapeText multiline 0 rest

/-- The characters between the marks. -/
def StringForm.printBody (f : StringForm) (cs : List Char) : List Char :=
  if f.escapes then escapeText f.multiline 0 cs else cs

/-- A string as it is written. A text over several lines begins on a line of its own. -/
def printString (s : String) : List Char :=
  let cs := s.toList
  let f := StringForm.ofText cs
  f.fence ++ (if f.multiline ∧ cs.contains '\n' then ['\n'] else []) ++ f.printBody cs ++ f.fence

end SchemaRegistry.Toml
