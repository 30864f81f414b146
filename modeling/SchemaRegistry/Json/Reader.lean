import SchemaRegistry.Json.Tree

/-!
# Reading typed values

A `Reader` takes a tree to a value of some type, or to the first fault on the way: what stands earlier
in the text is judged earlier, and what the type does not ask for is passed over with a look at its
syntax alone.
-/

namespace SchemaRegistry.Json

/-! ## The circumstances of reading -/

/-- Where the tree that is read comes from. The three differ only in how they report an array that is
too long for a record and a variant that is not given by its name. -/
inductive Manner where
  /-- From a text that is read as it comes. -/
  | text
  /-- From a value. -/
  | value
  /-- From members of a text that were set aside until the whole object was known. -/
  | buffered
deriving DecidableEq

/-- What a reader knows about its place. -/
structure Scope where
  /-- How many more arrays and objects may be opened inside each other. -/
  depth : Nat
  manner : Manner

/-- At most 127 arrays and objects are read inside each other. -/
def Scope.ofText : Scope := ⟨127, .text⟩

/-- The scope for a value that is already in memory. -/
def Scope.ofValue : Scope := ⟨127, .value⟩

/-- The scope inside an array or object. -/
def Scope.enter (s : Scope) : Except Fault Scope :=
  if s.depth = 0 then .error .nesting else .ok ⟨s.depth - 1, s.manner⟩

/-- Reads a tree as a value of type `α`. -/
abbrev Reader (α : Type) := Scope → Tree → Except Fault α

/-! ## Faults of the syntax -/

/-- The fault of a string that breaks off, when its value is wanted. -/
def StringFault.fault : StringFault → Fault
  | .ends => .stringEnds
  | .control => .controlCharacter
  | .escape | .hex => .invalidEscape

/-- Whether a UTF-16 unit is the first half of a surrogate pair. -/
def isHighSurrogate (u : Nat) : Bool := 0xD800 ≤ u ∧ u ≤ 0xDBFF

/-- Whether a UTF-16 unit is the second half of a surrogate pair. -/
def isLowSurrogate (u : Nat) : Bool := 0xDC00 ≤ u ∧ u ≤ 0xDFFF

/-- The character of a surrogate pair. -/
def ofSurrogates (high low : Nat) : Char :=
  Char.ofNat (0x10000 + (high - 0xD800) * 0x400 + (low - 0xDC00))

/-- The characters that the pieces of a string stand for. A string that breaks off has a fault in any
case, but a surrogate out of place before the break counts first; the first half of a pair must be
followed at once by an escape, if the text does not end there. -/
def spell (why : Option StringFault) : List Piece → Except Fault (List Char)
  | [] =>
    match why with
    | none => .ok []
    | some why => .error why.fault
  | .char c :: rest => (spell why rest).map (c :: ·)
  | .unit u :: rest =>
    if isLowSurrogate u then .error .loneSurrogate
    else if isHighSurrogate u then
      match rest with
      | .unit low :: rest =>
        if isLowSurrogate low then (spell why rest).map (ofSurrogates u low :: ·)
        else .error .loneSurrogate
      | .char _ :: _ => .error .cutSurrogate
      | [] =>
        match why with
        | some .ends => .error .stringEnds
        | some .hex => .error .invalidEscape
        | _ => .error .cutSurrogate
    else (spell why rest).map (Char.ofNat u :: ·)

/-- The text that the pieces of a string stand for. -/
def spellString (pieces : List Piece) : Except Fault String :=
  (spell none pieces).map String.ofList

/-- The fault of a place where no token can be read, when its value is wanted. -/
def ScanFault.fault : ScanFault → Fault
  | .stray => .expectedValue
  | .word ends => if ends then .valueEnds else .expectedWord
  | .numeral ends => if ends then .valueEnds else .invalidNumber
  | .string pieces why =>
    match spell (some why) pieces with
    | .error fault => fault
    | .ok _ => why.fault

/-- The fault of a place where no token can be read, when its value is passed over. -/
def ScanFault.skipFault : ScanFault → Fault
  | .stray => .expectedValue
  | .word ends => if ends then .valueEnds else .expectedWord
  | .numeral _ => .invalidNumber
  | .string _ why => why.fault

/-- The fault of a place where a value should stand. -/
def valueFault : Option Token → Fault
  | none => .valueEnds
  | some (.fault why) => why.fault
  | some _ => .expectedValue

/-- The fault of a place where a value to be passed over should stand. -/
def skipFault : Option Token → Fault
  | none => .valueEnds
  | some (.fault why) => why.skipFault
  | some _ => .expectedValue

/-- The fault of a place where a key should stand. -/
def keyFault : Token → Fault
  | .fault (.string pieces why) => (ScanFault.string pieces why).fault
  | _ => .keyNotString

/-- The fault of a place where the key of a member to be passed over should stand. -/
def skipKeyFault : Token → Fault
  | .fault (.string _ why) => why.fault
  | _ => .keyNotString

/-- The fault of a place where a colon should stand. -/
def colonFault : Option Token → Fault
  | none => .objectEnds
  | some _ => .expectedColon

/-- The fault of the end of an array whose items have all been read. -/
def ArrayEnd.check : ArrayEnd → Except Fault Unit
  | .closed => .ok ()
  | .insideItem => .error .valueEnds
  | .missing none => .error .arrayEnds
  | .missing (some _) => .error .expectedCommaOrBracket
  | .trailingComma => .error .trailingComma

/-- The fault of the end of an array whose items have all been passed over. -/
def ArrayEnd.skip : ArrayEnd → Except Fault Unit
  | .trailingComma => .error .expectedValue
  | ending => ending.check

/-- The fault of the end of an object whose members have all been read. The key of a last member that
has no colon is spelt out first. -/
def ObjectEnd.check : ObjectEnd → Except Fault Unit
  | .closed => .ok ()
  | .insideValue => .error .valueEnds
  | .missing none => .error .objectEnds
  | .missing (some _) => .error .expectedCommaOrBrace
  | .trailingComma => .error .trailingComma
  | .afterComma => .error .valueEnds
  | .noKey found => .error (keyFault found)
  | .noColon key found => do
    let _ ← spellString key
    throw (colonFault found)

/-- The fault of the end of an object whose members have all been passed over. -/
def ObjectEnd.skip : ObjectEnd → Except Fault Unit
  | .trailingComma => .error .keyNotString
  | .afterComma => .error .objectEnds
  | .noKey found => .error (skipKeyFault found)
  | .noColon _ found => .error (colonFault found)
  | ending => ending.check

/-! ## Passing over -/

namespace Tree

mutual

/-- Checks the syntax of a value that is not wanted. -/
def skip : Tree → Except Fault Unit
  | .null | .boolean _ | .number _ | .string _ => .ok ()
  | .array items ending => do
    skipItems items
    ending.skip
  | .object members ending => do
    skipMembers members
    ending.skip
  | .broken found => .error (skipFault found)

/-- Checks the syntax of items that are not wanted. -/
def skipItems : List Tree → Except Fault Unit
  | [] => .ok ()
  | t :: rest => do
    skip t
    skipItems rest

/-- Checks the syntax of members that are not wanted. -/
def skipMembers : List (List Piece × Tree) → Except Fault Unit
  | [] => .ok ()
  | (_, t) :: rest => do
    skip t
    skipMembers rest

end

end Tree

/-! ## Simple readers -/

namespace Reader

variable {α : Type}

/-- Fails because something else is expected here; a scalar is read to its end to show it. -/
def mismatch (expected : String) (t : Tree) : Except Fault α :=
  match t with
  | .null => .error (.invalidType .null expected)
  | .boolean b => .error (.invalidType (.boolean b) expected)
  | .number none => .error .numberRange
  | .number (some n) => .error (.invalidType (.number n) expected)
  | .string pieces => do
    let s ← spellString pieces
    throw (.invalidType (.text s) expected)
  | .array _ _ => .error (.invalidType .sequence expected)
  | .object _ _ => .error (.invalidType .map expected)
  | .broken found => .error (valueFault found)

/-- Reads a string. -/
def string : Reader String := fun _ t =>
  match t with
  | .string pieces => spellString pieces
  | t => mismatch "a string" t

/-- Reads a boolean. -/
def boolean : Reader Bool := fun _ t =>
  match t with
  | .boolean b => .ok b
  | t => mismatch "a boolean" t

/-- Reads a natural number of 32 bits. -/
def natural32 : Reader UInt32 := fun _ t =>
  match t with
  | .number (some (.integer n h)) =>
    if 0 ≤ n ∧ n < 0x100000000 then .ok (UInt32.ofNat n.toNat)
    else .error (.invalidValue (.number (.integer n h)) "u32")
  | t => mismatch "u32" t

/-- Reads `null`, and nothing else. -/
def unit : Reader Unit := fun _ t =>
  match t with
  | .null => .ok ()
  | t => mismatch "unit" t

/-- Reads a value that may be `null` instead. -/
def option (r : Reader α) : Reader (Option α) := fun s t =>
  match t with
  | .null => .ok none
  | t => (r s t).map some

/-- Reads an array. -/
def list (r : Reader α) : Reader (List α) := fun s t =>
  match t with
  | .array items ending => do
    let inner ← s.enter
    let xs ← items.mapM (r inner)
    ending.check
    return xs
  | t => mismatch "a sequence" t

/-- Reads an array as a set. -/
def set : Reader SortedSet := fun s t => (list string s t).map SortedSet.ofList

/-- Reads an object as a map; of several members with one key the last counts. -/
def map (r : Reader α) : Reader (SortedMap α) := fun s t =>
  match t with
  | .object members ending => do
    let inner ← s.enter
    let entries ← members.mapM fun (key, value) => do
      let key ← spellString key
      return (key, ← r inner value)
    ending.check
    return SortedMap.ofList entries
  | t => mismatch "a map" t

/-! ## Data -/

mutual

/-- Reads any value, with the members of every object in key order. -/
def anyValue (s : Scope) : Tree → Except Fault Value
  | .null => .ok .null
  | .boolean b => .ok (.boolean b)
  | .number none => .error .numberRange
  | .number (some n) => .ok (.number n)
  | .string pieces => (spellString pieces).map .text
  | .array items ending => do
    let inner ← s.enter
    let values ← anyItems inner items
    ending.check
    return .array values
  | .object members ending => do
    let inner ← s.enter
    let entries ← anyMembers inner [] members
    ending.check
    return .object entries
  | .broken found => .error (valueFault found)

/-- Reads the items of an array as any values. -/
def anyItems (s : Scope) : List Tree → Except Fault (List Value)
  | [] => .ok []
  | t :: rest => do
    let v ← anyValue s t
    let vs ← anyItems s rest
    return v :: vs

/-- Reads the members of an object as any values and writes them into entries in key order. -/
def anyMembers (s : Scope) (entries : List (String × Value)) :
    List (List Piece × Tree) → Except Fault (List (String × Value))
  | [] => .ok entries
  | (key, t) :: rest => do
    let key ← spellString key
    let v ← anyValue s t
    anyMembers s (insertEntry key v entries) rest

end

mutual

theorem ordered_of_anyValue {s : Scope} :
    ∀ {t : Tree} {v : Value}, anyValue s t = .ok v → v.Ordered
  | .null, v, h => by cases h; trivial
  | .boolean b, v, h => by cases h; trivial
  | .number none, v, h => by cases h
  | .number (some n), v, h => by cases h; trivial
  | .string pieces, v, h => by
    simp only [anyValue] at h
    cases hs : spellString pieces with
    | error e => rw [hs] at h; cases h
    | ok x => rw [hs] at h; cases h; trivial
  | .array items ending, v, h => by
    simp only [anyValue, bind, Except.bind] at h
    split at h
    · cases h
    · rename_i inner _
      split at h
      · cases h
      · rename_i values hv
        split at h
        · cases h
        · cases h; exact allOrdered_of_anyItems hv
  | .object members ending, v, h => by
    simp only [anyValue, bind, Except.bind] at h
    split at h
    · cases h
    · rename_i inner _
      split at h
      · cases h
      · rename_i entries hv
        split at h
        · cases h
        · cases h; exact ordered_of_anyMembers List.Pairwise.nil trivial hv
  | .broken found, v, h => by cases h

theorem allOrdered_of_anyItems {s : Scope} :
    ∀ {ts : List Tree} {vs : List Value}, anyItems s ts = .ok vs → Value.AllOrdered vs
  | [], vs, h => by cases h; trivial
  | t :: rest, vs, h => by
    simp only [anyItems, bind, Except.bind] at h
    split at h
    · cases h
    · rename_i v hv
      split at h
      · cases h
      · rename_i ws hw
        cases h
        exact ⟨ordered_of_anyValue hv, allOrdered_of_anyItems hw⟩

theorem ordered_of_anyMembers {s : Scope} :
    ∀ {ms : List (List Piece × Tree)} {before after : List (String × Value)},
      InKeyOrder before → Value.MembersOrdered before →
      anyMembers s before ms = .ok after → InKeyOrder after ∧ Value.MembersOrdered after
  | [], before, after, hk, hm, h => by cases h; exact ⟨hk, hm⟩
  | (key, t) :: rest, before, after, hk, hm, h => by
    simp only [anyMembers, bind, Except.bind] at h
    split at h
    · cases h
    · split at h
      · cases h
      · rename_i v hv
        exact ordered_of_anyMembers hk.insertEntry (hm.insertEntry (ordered_of_anyValue hv)) h

end

/-- Reads any value. -/
def data : Reader Data := fun s t =>
  match h : anyValue s t with
  | .ok v => .ok ⟨v, ordered_of_anyValue h⟩
  | .error fault => .error fault

end Reader

end SchemaRegistry.Json
