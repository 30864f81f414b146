import SchemaRegistry.SortedMap
import SchemaRegistry.Decimal.Layout

/-!
# JSON values

`Value` is a JSON value as it is written: the members of an object have an order. `Data` is a value
whose objects list their members in key order, each key once; two pieces of data that hold the same
are the same. `Value.sortKeys` is the passage from the one to the other.
-/

namespace SchemaRegistry.Json

/-- A number: an integer of 64 bits, signed or unsigned, or a double precision number. -/
inductive Number where
  | integer (n : Int) (inRange : -0x8000000000000000 ≤ n ∧ n < 0x10000000000000000)
  | float (x : Float)

namespace Number

theorem inRange_natCast {n : Nat} (h : n < 0x10000000000000000) :
    -0x8000000000000000 ≤ (n : Int) ∧ (n : Int) < 0x10000000000000000 := by
  constructor <;> omega

theorem inRange_neg_natCast {n : Nat} (h : n ≤ 0x8000000000000000) :
    -0x8000000000000000 ≤ -(n : Int) ∧ -(n : Int) < 0x10000000000000000 := by
  constructor <;> omega

end Number

/-- A JSON value. -/
inductive Value where
  | null
  | boolean (b : Bool)
  | number (n : Number)
  | text (s : String)
  | array (items : List Value)
  | object (members : List (String × Value))

instance : Inhabited Value := ⟨.null⟩

namespace Value

/-- A natural number as a value; from `2 ^ 64` on there is no integer to hold it. -/
def ofNat (n : Nat) : Value :=
  if h : n < 0x10000000000000000 then .number (.integer n (Number.inRange_natCast h))
  else .number (.float (Decimal.toFloat ⟨n, 0⟩))

/-! ## Key order -/

mutual

/-- Every object in the value lists its members in key order. -/
def Ordered : Value → Prop
  | .null | .boolean _ | .number _ | .text _ => True
  | .array items => AllOrdered items
  | .object members => InKeyOrder members ∧ MembersOrdered members

/-- `Ordered` for every item. -/
def AllOrdered : List Value → Prop
  | [] => True
  | v :: rest => Ordered v ∧ AllOrdered rest

/-- `Ordered` for every value of a member. -/
def MembersOrdered : List (String × Value) → Prop
  | [] => True
  | (_, v) :: rest => Ordered v ∧ MembersOrdered rest

end

mutual

/-- The same value with the members of every object in key order; of several members with one key
the last stays. -/
def sortKeys : Value → Value
  | .array items => .array (sortItems items)
  | .object members => .object (sortMembers [] members)
  | v => v

/-- `sortKeys` for every item. -/
def sortItems : List Value → List Value
  | [] => []
  | v :: rest => sortKeys v :: sortItems rest

/-- Writes the members, sorted inside, into entries that are in key order. -/
def sortMembers (entries : List (String × Value)) : List (String × Value) → List (String × Value)
  | [] => entries
  | (k, v) :: rest => sortMembers (insertEntry k (sortKeys v) entries) rest

end

theorem allOrdered_iff {items : List Value} : AllOrdered items ↔ ∀ v ∈ items, v.Ordered := by
  induction items with
  | nil => simp [AllOrdered]
  | cons v rest ih => simp [AllOrdered, ih]

theorem membersOrdered_iff {members : List (String × Value)} :
    MembersOrdered members ↔ ∀ m ∈ members, m.2.Ordered := by
  induction members with
  | nil => simp [MembersOrdered]
  | cons m rest ih => obtain ⟨k, v⟩ := m; simp [MembersOrdered, ih]

theorem MembersOrdered.insertEntry {key : String} {value : Value} {members : List (String × Value)}
    (hv : value.Ordered) (h : MembersOrdered members) :
    MembersOrdered (insertEntry key value members) := by
  refine membersOrdered_iff.2 fun m hm => ?_
  rcases mem_insertEntry hm with rfl | hm
  · exact hv
  · exact membersOrdered_iff.1 h m hm

end Value

/-! ## Data -/

/-- A JSON value whose objects are in key order. -/
structure Data where
  value : Value
  ordered : value.Ordered

namespace Data

instance : Inhabited Data := ⟨⟨.null, trivial⟩⟩

/-- The datum `null`. -/
def null : Data := ⟨.null, trivial⟩

/-- A text as a datum. -/
def text (s : String) : Data := ⟨.text s, trivial⟩

/-- A natural number as a datum. -/
def ofNat (n : Nat) : Data :=
  ⟨Value.ofNat n, by unfold Value.ofNat; split <;> trivial⟩

/-- The array of the given items. -/
def array (items : List Data) : Data :=
  ⟨.array (items.map (·.value)), by
    refine Value.allOrdered_iff.2 fun v hv => ?_
    obtain ⟨d, _, rfl⟩ := List.mem_map.1 hv
    exact d.ordered⟩

/-- The object of the given members. -/
def object (members : SortedMap Data) : Data :=
  ⟨.object (members.map (·.value)).entries, (members.map (·.value)).inKeyOrder, by
    refine Value.membersOrdered_iff.2 fun m hm => ?_
    obtain ⟨e, _, rfl⟩ := List.mem_map.1 hm
    exact e.2.ordered⟩

end Data

end SchemaRegistry.Json
