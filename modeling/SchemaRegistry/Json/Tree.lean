import SchemaRegistry.Json.Scan

/-!
# Syntax trees of JSON texts

A `Tree` is what the tokens of a text say, as far as they say it: where the text breaks off, the tree
holds what was found instead, at the place where it was found. A reader that walks the tree from left
to right thus meets a misspelt bracket and a value of the wrong type in the order in which they stand
in the text.

Objects keep all their members in the order of the text, with repeated keys.
-/

namespace SchemaRegistry.Json

/-- How an array ends. -/
inductive ArrayEnd where
  | closed
  /-- The last item breaks off, so the end was never looked for. -/
  | insideItem
  /-- Neither a comma nor the closing bracket; `none` if the text ends. -/
  | missing (found : Option Token)
  /-- The closing bracket right after a comma. -/
  | trailingComma

/-- How an object ends. -/
inductive ObjectEnd where
  | closed
  /-- The last value breaks off, so the end was never looked for. -/
  | insideValue
  /-- Neither a comma nor the closing brace; `none` if the text ends. -/
  | missing (found : Option Token)
  /-- The closing brace right after a comma. -/
  | trailingComma
  /-- The text ends after a comma. -/
  | afterComma
  /-- Something that is no string where a key should stand. -/
  | noKey (found : Token)
  /-- A key without a colon after it; `none` if the text ends. -/
  | noColon (key : List Piece) (found : Option Token)

/-- What a text says. -/
inductive Tree where
  | null
  | boolean (b : Bool)
  | number (n : Option Number)
  | string (pieces : List Piece)
  | array (items : List Tree) (ending : ArrayEnd)
  | object (members : List (List Piece × Tree)) (ending : ObjectEnd)
  /-- No value stands here, but this token; `none` if the text ends. -/
  | broken (found : Option Token)

instance : Inhabited Tree := ⟨.null⟩

namespace Tree

/-! ## From tokens

The readers below return the tokens that are left, or `none` when the text broke off inside what they
read. Each call that reads further consumes a token, so the number of tokens bounds the calls.
-/

mutual

/-- Reads a value. -/
def readValue : Nat → List Token → Tree × Option (List Token)
  | 0, _ => (.broken none, none)
  | bound + 1, tokens =>
    match tokens with
    | .null :: rest => (.null, some rest)
    | .boolean b :: rest => (.boolean b, some rest)
    | .number n :: rest => (.number n, some rest)
    | .string pieces :: rest => (.string pieces, some rest)
    | .openArray :: .closeArray :: rest => (.array [] .closed, some rest)
    | .openArray :: [] => (.array [] (.missing none), none)
    | .openArray :: rest =>
      let (items, ending, rest) := readItems bound rest
      (.array items ending, rest)
    | .openObject :: .closeObject :: rest => (.object [] .closed, some rest)
    | .openObject :: [] => (.object [] (.missing none), none)
    | .openObject :: rest =>
      let (members, ending, rest) := readMembers bound rest
      (.object members ending, rest)
    | found => (.broken found.head?, none)

/-- Reads the items of an array, of which there is at least one, and its end. -/
def readItems : Nat → List Token → List Tree × ArrayEnd × Option (List Token)
  | 0, _ => ([], .missing none, none)
  | bound + 1, tokens =>
    match readValue bound tokens with
    | (item, none) => ([item], .insideItem, none)
    | (item, some (.closeArray :: rest)) => ([item], .closed, some rest)
    | (item, some (.comma :: .closeArray :: _)) => ([item], .trailingComma, none)
    | (item, some (.comma :: rest)) =>
      let (items, ending, rest) := readItems bound rest
      (item :: items, ending, rest)
    | (item, some rest) => ([item], .missing rest.head?, none)

/-- Reads the members of an object, of which there is at least one, and its end. -/
def readMembers : Nat → List Token → List (List Piece × Tree) × ObjectEnd × Option (List Token)
  | 0, _ => ([], .missing none, none)
  | bound + 1, tokens =>
    match tokens with
    | .string key :: .colon :: rest =>
      match readValue bound rest with
      | (value, none) => ([(key, value)], .insideValue, none)
      | (value, some (.closeObject :: rest)) => ([(key, value)], .closed, some rest)
      | (value, some (.comma :: .closeObject :: _)) => ([(key, value)], .trailingComma, none)
      | (value, some [.comma]) => ([(key, value)], .afterComma, none)
      | (value, some (.comma :: rest)) =>
        let (members, ending, rest) := readMembers bound rest
        ((key, value) :: members, ending, rest)
      | (value, some rest) => ([(key, value)], .missing rest.head?, none)
    | .string key :: rest => ([], .noColon key rest.head?, none)
    | found :: _ => ([], .noKey found, none)
    | [] => ([], .missing none, none)

end

/-- The tree of a text, and whether the text goes on after it. -/
def ofText (text : String) : Tree × Bool :=
  let tokens := scan text.toList
  let (tree, rest) := readValue (2 * tokens.length + 2) tokens
  (tree, match rest with
    | some (_ :: _) => true
    | _ => false)

/-! ## From values -/

/-- The pieces of a text that holds no escapes. -/
def plainPieces (s : String) : List Piece := s.toList.map .char

mutual

/-- The tree of a value. -/
def ofValue : Value → Tree
  | .null => .null
  | .boolean b => .boolean b
  | .number n => .number (some n)
  | .text s => .string (plainPieces s)
  | .array items => .array (ofItems items) .closed
  | .object members => .object (ofMembers members) .closed

/-- The trees of the items of an array. -/
def ofItems : List Value → List Tree
  | [] => []
  | v :: rest => ofValue v :: ofItems rest

/-- The keys and trees of the members of an object. -/
def ofMembers : List (String × Value) → List (List Piece × Tree)
  | [] => []
  | (k, v) :: rest => (plainPieces k, ofValue v) :: ofMembers rest

end

end Tree

end SchemaRegistry.Json
