import SchemaRegistry.Toml.Draft
import SchemaRegistry.Toml.Quoting
import SchemaRegistry.Toml.Scalar

/-!
# Reading TOML

A document is a list of statements, one on a line: a header that opens a table, or a key with its value.
`readDocument?` reads the statements and carries them out.

Brackets may be nested up to a fixed depth, and so may the keys of a path.
-/

namespace SchemaRegistry.Toml

/-- The greatest depth of brackets, and the greatest number of keys in a path. -/
def depthLimit : Nat := 79

/-! ## Space -/

/-- Drops blanks, line ends and comments. A comment goes to the end of its line. -/
def skipSpace (inComment : Bool) : List Char → Option (List Char)
  | [] => some []
  | '\n' :: rest => skipSpace false rest
  | '\r' :: '\n' :: rest => skipSpace false rest
  | c :: rest =>
    if inComment then if isControl c then none else skipSpace true rest
    else if isBlank c then skipSpace false rest
    else if c = '#' then skipSpace true rest
    else some (c :: rest)

/-- Drops blanks. -/
def skipBlanks (cs : List Char) : List Char := cs.dropWhile isBlank

/-- Takes a character off the front of a text. -/
def expect (c : Char) : List Char → Option (List Char)
  | d :: rest => if d = c then some rest else none
  | [] => none

/-- Goes to the next statement, which stands on another line. -/
def endLine (cs : List Char) : Option (List Char) :=
  match skipBlanks cs with
  | [] => some []
  | '\n' :: rest => skipSpace false rest
  | '\r' :: '\n' :: rest => skipSpace false rest
  | '#' :: rest => skipSpace true rest
  | _ => none

/-! ## Keys -/

/-- Whether a character may stand in a key without quotes. -/
def isKeyChar (c : Char) : Bool := c.isAlphanum ∨ c = '-' ∨ c = '_'

/-- Reads one key. -/
def readKey : Reader String := fun cs =>
  match cs with
  | '"' :: _ => readLineString cs
  | '\'' :: _ => readLineString cs
  | _ =>
    let key := cs.takeWhile isKeyChar
    if key.isEmpty then none else some (String.ofList key, cs.dropWhile isKeyChar)

/-- Reads up to `bound` keys with dots between them, and the blanks around them. -/
def readKeys : Nat → Reader KeyPath
  | 0, _ => none
  | bound + 1, cs => do
    let (key, rest) ← readKey (skipBlanks cs)
    match skipBlanks rest with
    | '.' :: rest =>
      let (path, rest) ← readKeys bound rest
      return (⟨key :: path.tables, path.key⟩, rest)
    | rest => return (⟨[], key⟩, rest)

/-! ## Values -/

/-- Reads the items of an array after its opening bracket or a comma. -/
def readItems (readValue : Reader Value) : Nat → Reader (List Value)
  | 0, _ => none
  | bound + 1, cs => do
    match ← skipSpace false cs with
    | ']' :: rest => return ([], rest)
    | cs =>
      let (item, rest) ← readValue cs
      match ← skipSpace false rest with
      | ']' :: rest => return ([item], rest)
      | ',' :: rest =>
        let (items, rest) ← readItems readValue bound rest
        return (item :: items, rest)
      | _ => none

/-- Reads a key with its value. -/
def readPair (readValue : Reader Value) : Reader (KeyPath × Value) := fun cs => do
  let (path, rest) ← readKeys depthLimit cs
  let rest ← expect '=' rest
  let (v, rest) ← readValue (skipBlanks rest)
  return ((path, v), rest)

/-- Reads the members of a table in braces, of which there is at least one. -/
def readMembers (readValue : Reader Value) : Nat → Reader (List (KeyPath × Value))
  | 0, _ => none
  | bound + 1, cs => do
    let (member, rest) ← readPair readValue cs
    match skipBlanks rest with
    | '\x7d' :: rest => return ([member], rest)
    | ',' :: rest =>
      let (members, rest) ← readMembers readValue bound rest
      return (member :: members, rest)
    | _ => none

/-- Reads a table after its opening brace. -/
def readInlineTable (readValue : Reader Value) : Reader Value := fun cs =>
  match skipBlanks cs with
  | '\x7d' :: rest => some (.table [], rest)
  | cs => do
    let (members, rest) ← readMembers readValue cs.length cs
    return (.table (← Draft.assignAll members []).finish, rest)

/-- Reads a value in which brackets are nested up to the given depth. -/
def readValue : Nat → Reader Value := fun depth cs =>
  match cs with
  | '"' :: _ | '\'' :: _ => (readString cs).map fun (s, rest) => (.text s, rest)
  | '[' :: rest =>
    match depth with
    | 0 => none
    | depth + 1 => (readItems (readValue depth) (rest.length + 1) rest).map fun (items, rest) =>
      (.array items, rest)
  | '\x7b' :: rest =>
    match depth with
    | 0 => none
    | depth + 1 => readInlineTable (readValue depth) rest
  | cs => readWord cs

/-! ## Documents -/

/-- A statement of a document. -/
inductive Statement where
  /-- Opens a table. -/
  | openTable (path : KeyPath)
  /-- Opens a further table under one key. -/
  | openNext (path : KeyPath)
  /-- Sets a value in the table opened last. -/
  | assign (path : KeyPath) (v : Value)

/-- Reads a statement. -/
def readStatement : Reader Statement
  | '[' :: '[' :: rest => do
    let (path, rest) ← readKeys depthLimit rest
    return (.openNext path, ← expect ']' (← expect ']' rest))
  | '[' :: rest => do
    let (path, rest) ← readKeys depthLimit rest
    return (.openTable path, ← expect ']' rest)
  | cs => do
    let ((path, v), rest) ← readPair (readValue depthLimit) cs
    return (.assign path v, rest)

/-- Reads at most `bound` statements to the end of the text. -/
def readStatements : Nat → List Char → Option (List Statement)
  | _, [] => some []
  | 0, _ => none
  | bound + 1, cs => do
    let (statement, rest) ← readStatement cs
    return statement :: (← readStatements bound (← endLine rest))

/-- Carries out statements; `open?` is the path of the table opened last. -/
def run (opened : List String) : List Statement → Draft → Option Draft
  | [], d => some d
  | .openTable path :: rest, d => do run path.keys rest (← d.openTable path)
  | .openNext path :: rest, d => do run path.keys rest (← d.openNext path)
  | .assign path v :: rest, d => do
    run opened rest (← d.changeHeaded opened (Draft.assign path v))

/-- Reads a whole document as the members of its outermost table. A mark of the byte order in front does
not count. -/
def readDocument? (text : String) : Option (List (String × Value)) := do
  let cs := match text.toList with
    | '\ufeff' :: rest => rest
    | cs => cs
  let statements ← readStatements cs.length (← skipSpace false cs)
  return (← run [] statements []).finish

end SchemaRegistry.Toml
