import SchemaRegistry.Json.Codec

/-!
# Records

A record is written as an object, with its members in the order of declaration; a member may be left
out when its value says nothing. It is read from an object whose members come in any order, or from an
array of the values in the order of declaration.

Reading an object goes member by member: a key that the record does not declare is passed over, a key
given twice is a fault as soon as it is met, and only after the last member a missing one counts.
Reading an array, trailing members that have a value of their own may be missing.
-/

namespace SchemaRegistry.Json

/-- The values of a record, one of each type. -/
def Row : List Type → Type
  | [] => Unit
  | α :: rest => α × Row rest

/-- The values of a record, as far as they have been read. -/
def Draft : List Type → Type
  | [] => Unit
  | α :: rest => Option α × Draft rest

/-- The declaration of a member. -/
structure Member (α : Type) where
  key : String
  codec : Codec α
  /-- The value of a member that is not given; `none` if it must be given. -/
  absent : Option α
  /-- Whether the member is left out in writing. -/
  omits : α → Bool

namespace Member

variable {α : Type}

/-- A member that must be given and is always written. -/
def required (key : String) (codec : Codec α) : Member α := ⟨key, codec, none, fun _ => false⟩

/-- A member with a value of its own, always written. -/
def optional (key : String) (codec : Codec α) (absent : α) : Member α :=
  ⟨key, codec, some absent, fun _ => false⟩

/-- A member with a value of its own that is left out in writing when `omits` says so. -/
def omittable (key : String) (codec : Codec α) (absent : α) (omits : α → Bool) : Member α :=
  ⟨key, codec, some absent, omits⟩

end Member

/-- The members of a record, in the order of declaration. -/
inductive Members : List Type → Type 1 where
  | nil : Members []
  | cons {α : Type} {rest : List Type} (first : Member α) (others : Members rest) :
    Members (α :: rest)

namespace Members

/-- The number of members. -/
def count : {αs : List Type} → Members αs → Nat
  | _, .nil => 0
  | _, .cons _ others => others.count + 1

/-- The keys, in the order of declaration. -/
def keys : {αs : List Type} → Members αs → List String
  | _, .nil => []
  | _, .cons first others => first.key :: others.keys

/-! ## Writing -/

/-- The members of the object that is written. -/
def write : {αs : List Type} → Members αs → Row αs → List (String × Value)
  | _, .nil, _ => []
  | _, .cons first others, (a, row) =>
    if first.omits a then others.write row
    else (first.key, first.codec.write a) :: others.write row

/-! ## Reading an object -/

/-- Nothing has been read. -/
def blank : {αs : List Type} → Members αs → Draft αs
  | _, .nil => ()
  | _, .cons _ others => (none, others.blank)

/-- Reads a value into the draft, or passes over it if no member has its key. -/
def accept (s : Scope) (key : String) (t : Tree) :
    {αs : List Type} → Members αs → Draft αs → Except Fault (Draft αs)
  | _, .nil, d => do
    t.skip
    return d
  | _, .cons first others, (a, d) =>
    if first.key = key then
      match a with
      | some _ => .error (.duplicateField key)
      | none => do return (some (← first.codec.read s t), d)
    else do return (a, ← accept s key t others d)

/-- Whether a value has been read under the key. -/
def given (key : String) : {αs : List Type} → Members αs → Draft αs → Bool
  | _, .nil, _ => false
  | _, .cons first others, (a, d) => if first.key = key then a.isSome else given key others d

/-- Reads the members of an object in their order. -/
def acceptAll (s : Scope) {αs : List Type} (ms : Members αs) (d : Draft αs) :
    List (List Piece × Tree) → Except Fault (Draft αs)
  | [] => .ok d
  | (key, t) :: rest => do
    let d ← ms.accept s (← spellString key) t d
    acceptAll s ms d rest

/-- Checks the end of an object. A last key without a colon is a fault of its own if it is given for the
second time. -/
def checkEnd {αs : List Type} (ms : Members αs) (d : Draft αs) : ObjectEnd → Except Fault Unit
  | .noColon key found => do
    let key ← spellString key
    throw (if ms.given key d then .duplicateField key else colonFault found)
  | ending => ending.check

/-- The row of a draft; the first member that is missing counts. -/
def complete : {αs : List Type} → Members αs → Draft αs → Except Fault (Row αs)
  | _, .nil, _ => .ok ()
  | _, .cons first others, (a, d) =>
    match a <|> first.absent with
    | none => .error (.missingField first.key)
    | some a => do return (a, ← complete others d)

/-- Reads an object as a row. -/
def readObject (s : Scope) {αs : List Type} (ms : Members αs) (members : List (List Piece × Tree))
    (ending : ObjectEnd) : Except Fault (Row αs) := do
  let inner ← s.enter
  let d ← ms.acceptAll inner ms.blank members
  ms.checkEnd d ending
  ms.complete d

/-! ## Reading an array -/

/-- Takes one item for each member, as long as there are items; `length` items have been taken before,
and `expected` describes the record. The items left over come with the row. -/
def takeItems (s : Scope) (expected : String) (ending : ArrayEnd) :
    {αs : List Type} → Members αs → Nat → List Tree → Except Fault (Row αs × List Tree)
  | _, .nil, _, items => .ok ((), items)
  | _, .cons first others, length, [] =>
    match ending, first.absent with
    | .closed, some a => do
      let (row, left) ← takeItems s expected ending others length []
      return ((a, row), left)
    | .closed, none => .error (.invalidLength length expected)
    | ending, _ => do
      ending.check
      throw .valueEnds
  | _, .cons first others, length, t :: items => do
    let a ← first.codec.read s t
    let (row, left) ← takeItems s expected ending others (length + 1) items
    return ((a, row), left)

/-- Checks that an array ends with its last member. -/
def checkSurplus (manner : Manner) (count : Nat) (left : List Tree) (ending : ArrayEnd) :
    Except Fault Unit :=
  match left, manner, ending with
  | [], _, .missing (some _) => .error .trailingCharacters
  | [], _, ending => ending.check
  | _, .text, _ => .error .trailingCharacters
  | left, .value, _ => .error (.invalidLength (count + left.length) "fewer elements in array")
  | left, .buffered, _ =>
    .error (.invalidLength (count + left.length)
      (toString count ++ (if count = 1 then " element" else " elements") ++ " in sequence"))

/-- Reads an array as a row. -/
def readArray (s : Scope) (expected : String) {αs : List Type} (ms : Members αs)
    (items : List Tree) (ending : ArrayEnd) : Except Fault (Row αs) := do
  let inner ← s.enter
  let (row, left) ← ms.takeItems inner expected ending 0 items
  checkSurplus s.manner ms.count left ending
  return row

end Members

/-- A record with the given name and members; `make` and `row` pass between the record and the row of
its values. -/
def Codec.record {α : Type} {αs : List Type} (name : String) (ms : Members αs) (make : Row αs → α)
    (row : α → Row αs) : Codec α where
  write a := .object (ms.write (row a))
  read s t :=
    match t with
    | .object members ending => (ms.readObject s members ending).map make
    | .array items ending =>
      let elements := if ms.count = 1 then " element" else " elements"
      let expected := "struct " ++ name ++ " with " ++ toString ms.count ++ elements
      (ms.readArray s expected items ending).map make
    | t => Reader.mismatch ("struct " ++ name) t

end SchemaRegistry.Json
