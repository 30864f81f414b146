/-!
# Maps and sets in key order

A `SortedMap` holds entries with strictly increasing keys, so that two maps with the same entries are
the same value and a listing never depends on the order in which the entries were written. A
`SortedSet` is the same for keys alone.

Strings are ordered by code point throughout.
-/

namespace SchemaRegistry

variable {α β : Type}

/-! ## Entry lists -/

/-- Writes an entry into a list in key order; an entry with the same key is replaced. -/
def insertEntry (key : String) (value : α) : List (String × α) → List (String × α)
  | [] => [(key, value)]
  | (k, v) :: rest =>
    if key < k then (key, value) :: (k, v) :: rest
    else if key = k then (key, value) :: rest
    else (k, v) :: insertEntry key value rest

/-- Entries whose keys strictly increase. -/
def InKeyOrder (entries : List (String × α)) : Prop :=
  entries.Pairwise (fun a b => a.1 < b.1)

theorem mem_insertEntry {key : String} {value : α} {a : String × α} {entries : List (String × α)}
    (h : a ∈ insertEntry key value entries) : a = (key, value) ∨ a ∈ entries := by
  induction entries with
  | nil => simpa [insertEntry] using h
  | cons e rest ih =>
    obtain ⟨k, v⟩ := e
    simp only [insertEntry] at h
    split at h
    · simpa using h
    · split at h
      · rcases List.mem_cons.1 h with h | h
        · exact .inl h
        · exact .inr (List.mem_cons_of_mem _ h)
      · rcases List.mem_cons.1 h with h | h
        · exact .inr (h ▸ List.mem_cons_self)
        · rcases ih h with h | h
          · exact .inl h
          · exact .inr (List.mem_cons_of_mem _ h)

theorem InKeyOrder.insertEntry {key : String} {value : α} {entries : List (String × α)}
    (h : InKeyOrder entries) : InKeyOrder (insertEntry key value entries) := by
  induction entries with
  | nil => simp [SchemaRegistry.insertEntry, InKeyOrder]
  | cons e rest ih =>
    obtain ⟨k, v⟩ := e
    have hrest : InKeyOrder rest := List.Pairwise.of_cons h
    have hhead : ∀ b ∈ rest, k < b.1 := (List.pairwise_cons.1 h).1
    simp only [SchemaRegistry.insertEntry]
    split
    · rename_i hlt
      refine List.pairwise_cons.2 ⟨fun b hb => ?_, h⟩
      rcases List.mem_cons.1 hb with rfl | hb
      · exact hlt
      · exact String.lt_trans hlt (hhead b hb)
    · rename_i hlt
      split
      · rename_i heq
        subst heq
        exact List.pairwise_cons.2 ⟨hhead, hrest⟩
      · rename_i hne
        refine List.pairwise_cons.2 ⟨fun b hb => ?_, ih hrest⟩
        rcases mem_insertEntry hb with rfl | hb
        · exact Std.lt_of_le_of_ne (String.not_lt.1 hlt) (Ne.symm hne)
        · exact hhead b hb

/-! ## Maps -/

/-- A finite map from strings, listed in key order. -/
structure SortedMap (α : Type) where
  /-- The entries, their keys strictly increasing. -/
  entries : List (String × α)
  inKeyOrder : InKeyOrder entries := by exact List.Pairwise.nil

namespace SortedMap

/-- The map without entries. -/
def empty : SortedMap α := { entries := [] }

instance : EmptyCollection (SortedMap α) := ⟨empty⟩
instance : Inhabited (SortedMap α) := ⟨empty⟩
instance [DecidableEq α] : DecidableEq (SortedMap α) := fun a b =>
  decidable_of_iff (a.entries = b.entries) (by cases a; cases b; simp)

/-- Writes `value` under `key`; what stood there is replaced. -/
def insert (m : SortedMap α) (key : String) (value : α) : SortedMap α :=
  ⟨insertEntry key value m.entries, m.inKeyOrder.insertEntry⟩

/-- The value under `key`. -/
def get? (m : SortedMap α) (key : String) : Option α :=
  m.entries.lookup key

/-- Whether something stands under `key`. -/
def contains (m : SortedMap α) (key : String) : Bool :=
  (m.get? key).isSome

/-- Writes `value` under `key` unless something stands there already. -/
def insertIfNew (m : SortedMap α) (key : String) (value : α) : SortedMap α :=
  if m.contains key then m else m.insert key value

/-- The keys, increasing. -/
def keys (m : SortedMap α) : List String := m.entries.map (·.1)

/-- The values, in the order of their keys. -/
def values (m : SortedMap α) : List α := m.entries.map (·.2)

/-- The number of entries. -/
def size (m : SortedMap α) : Nat := m.entries.length

/-- Whether there is no entry. -/
def isEmpty (m : SortedMap α) : Bool := m.entries.isEmpty

/-- The map of a list of entries; of several with one key the last counts. -/
def ofList (entries : List (String × α)) : SortedMap α :=
  entries.foldl (fun m e => m.insert e.1 e.2) empty

/-- The entries of both maps; under a common key stands the value of `other`. -/
def union (m other : SortedMap α) : SortedMap α :=
  other.entries.foldl (fun m e => m.insert e.1 e.2) m

/-- The same keys with their values changed by `f`. -/
def map (f : α → β) (m : SortedMap α) : SortedMap β where
  entries := m.entries.map (fun e => (e.1, f e.2))
  inKeyOrder := by simpa [InKeyOrder, List.pairwise_map] using m.inKeyOrder

end SortedMap

/-! ## Sets -/

/-- A finite set of strings, listed in order. -/
def SortedSet : Type := SortedMap Unit

namespace SortedSet

/-- The set without elements. -/
def empty : SortedSet := SortedMap.empty

instance : EmptyCollection SortedSet := ⟨empty⟩
instance : Inhabited SortedSet := ⟨empty⟩
instance : DecidableEq SortedSet := inferInstanceAs (DecidableEq (SortedMap Unit))

/-- Adds an element. -/
def insert (s : SortedSet) (x : String) : SortedSet := SortedMap.insert s x ()

/-- Whether `x` is an element. -/
def contains (s : SortedSet) (x : String) : Bool := SortedMap.contains s x

/-- The elements, increasing. -/
def toList (s : SortedSet) : List String := SortedMap.keys s

/-- The number of elements. -/
def size (s : SortedSet) : Nat := SortedMap.size s

/-- The elements of a list. -/
def ofList (xs : List String) : SortedSet := xs.foldl insert empty

instance : Membership String SortedSet := ⟨fun s x => x ∈ s.toList⟩

end SortedSet

end SchemaRegistry
