import SchemaRegistry.Json.Reader

/-!
# Codecs

A `Codec` writes the values of a type as JSON values and reads them back. The codecs here are those of
the basic types; records have a module of their own.
-/

namespace SchemaRegistry.Json

/-- The two directions of a representation in JSON. -/
structure Codec (α : Type) where
  write : α → Value
  read : Reader α

namespace Codec

variable {α : Type}

/-- A string. -/
def string : Codec String := ⟨.text, Reader.string⟩

/-- A boolean. -/
def boolean : Codec Bool := ⟨.boolean, Reader.boolean⟩

/-- A natural number of 32 bits. -/
def natural32 : Codec UInt32 := ⟨fun n => .ofNat n.toNat, Reader.natural32⟩

/-- A value or `null`. -/
def option (c : Codec α) : Codec (Option α) where
  write
    | none => .null
    | some a => c.write a
  read := Reader.option c.read

/-- An array. -/
def list (c : Codec α) : Codec (List α) := ⟨fun xs => .array (xs.map c.write), Reader.list c.read⟩

/-- A set of strings, as an array in increasing order. -/
def set : Codec SortedSet := ⟨fun s => .array (s.toList.map .text), Reader.set⟩

/-- A map, as an object. -/
def map (c : Codec α) : Codec (SortedMap α) :=
  ⟨fun m => .object (m.map c.write).entries, Reader.map c.read⟩

/-- Any data. -/
def data : Codec Data := ⟨(·.value), Reader.data⟩

/-! ## Variants -/

/-- The variant of a name. -/
def findVariant (name : α → String) (all : List α) (s : String) : Except Fault α :=
  match all.find? (fun a => name a == s) with
  | some a => .ok a
  | none => .error (.unknownVariant s (all.map name))

/-- The value beside a variant that is written as the only key of an object carries no information. A
member that was set aside may be an empty object as well as `null`. -/
def readNothing : Reader Unit := fun s t =>
  match t, s.manner with
  | .object [] _, .buffered => .ok ()
  | t, _ => Reader.unit s t

/-- The fault of a token that stands where the name of a variant should. -/
def variantFault : Token → Fault
  | .null => .invalidType .null "variant identifier"
  | .boolean b => .invalidType (.boolean b) "variant identifier"
  | .number none => .numberRange
  | .number (some n) => .invalidType (.number n) "variant identifier"
  | .openArray => .invalidType .sequence "variant identifier"
  | .openObject => .invalidType .map "variant identifier"
  | .fault why => why.fault
  | _ => .expectedValue

/-- Reads a variant that is the only key of an object in a text. -/
def readKeyedVariant (name : α → String) (all : List α) (s : Scope)
    (members : List (List Piece × Tree)) (ending : ObjectEnd) : Except Fault α := do
  let inner ← s.enter
  match members, ending with
  | [], .missing none => throw .valueEnds
  | [], .noKey found => throw (variantFault found)
  | [], .noColon key found => do
    let _ ← findVariant name all (← spellString key)
    throw (colonFault found)
  | [], _ => throw .expectedValue
  | (key, value) :: rest, ending => do
    let a ← findVariant name all (← spellString key)
    readNothing inner value
    match rest, ending with
    | [], .closed => return a
    | [], .missing none => throw .objectEnds
    | _, _ => throw .expectedValue

/-- Reads a variant: its name, or an object with the name as the only key. -/
def readVariant (name : α → String) (all : List α) : Reader α := fun s t =>
  match t, s.manner with
  | .string pieces, _ => do findVariant name all (← spellString pieces)
  | .object members ending, .text => readKeyedVariant name all s members ending
  | .object [(key, value)] _, _ => do
    let a ← findVariant name all (← spellString key)
    readNothing s value
    return a
  | .object _ _, _ => .error (.invalidValue .map "map with a single key")
  | .broken none, .text => .error .valueEnds
  | .broken (some (.fault (.string pieces why))), .text => .error (ScanFault.string pieces why).fault
  | _, .text => .error .expectedValue
  | t, _ => Reader.mismatch "string or map" t

/-- A type with finitely many values, each written as its name. -/
def variant (name : α → String) (all : List α) : Codec α :=
  ⟨fun a => .text (name a), readVariant name all⟩

end Codec

/-- Reads a whole text. Nothing but blanks may follow the value. -/
def Codec.parse {α : Type} (c : Codec α) (text : String) : Except Fault α := do
  let (tree, goesOn) := Tree.ofText text
  let a ← c.read .ofText tree
  if goesOn then throw .trailingCharacters
  return a

/-- Reads a value that is in memory. -/
def Codec.ofValue {α : Type} (c : Codec α) (v : Value) : Except Fault α :=
  c.read .ofValue (Tree.ofValue v)

end SchemaRegistry.Json
