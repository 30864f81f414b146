import SchemaRegistry.SortedMap

/-!
# Looking up in maps in key order

What `get?`, `contains` and `size` answer after an entry has been written. With these laws nothing else
has to look at the list of entries.

A map is also determined by what it answers (`SortedMap.ext_get?`), and a set by its elements
(`SortedSet.ext_contains`): the order in which entries were written leaves no trace.
-/

namespace SchemaRegistry

variable {α : Type}

/-! ## Entry lists -/

theorem lookup_cons_ite (k key : String) (value : α) (entries : List (String × α)) :
    ((key, value) :: entries).lookup k = if k = key then some value else entries.lookup k := by
  by_cases h : k = key
  · simp [h]
  · have hbeq : (k == key) = false := by simpa using h
    simp only [List.lookup_cons, hbeq, if_neg h]

theorem lookup_insertEntry (key k : String) (value : α) (entries : List (String × α)) :
    (insertEntry key value entries).lookup k = if k = key then some value else entries.lookup k := by
  induction entries with
  | nil => rw [insertEntry, lookup_cons_ite]
  | cons e rest ih =>
    obtain ⟨k', v⟩ := e
    simp only [insertEntry]
    split
    · rw [lookup_cons_ite]
    · split
      · -- the entry that stood under `key` is replaced, so other keys look past it
        rename_i heq
        subst heq
        by_cases h : k = key <;> simp [lookup_cons_ite, h]
      · rename_i hne
        rw [lookup_cons_ite, ih, lookup_cons_ite]
        by_cases h : k = key
        · have hk : ¬ k = k' := fun hk => hne (h.symm.trans hk)
          simp only [if_pos h, if_neg hk]
        · simp only [if_neg h]

theorem length_insertEntry {key : String} {entries : List (String × α)} (value : α)
    (h : entries.lookup key = none) :
    (insertEntry key value entries).length = entries.length + 1 := by
  induction entries with
  | nil => rfl
  | cons e rest ih =>
    obtain ⟨k, v⟩ := e
    rw [List.lookup_eq_none_iff] at h
    have hne : ¬ key = k := by simpa using h (k, v) List.mem_cons_self
    have hrest : rest.lookup key = none :=
      List.lookup_eq_none_iff.2 fun p hp => h p (List.mem_cons_of_mem _ hp)
    simp only [insertEntry, if_neg hne]
    split
    · rfl
    · rw [List.length_cons, ih hrest, List.length_cons]

/-- In a list in key order an entry is what its key leads to. -/
theorem InKeyOrder.mem_iff_lookup {entries : List (String × α)} (h : InKeyOrder entries)
    {key : String} {value : α} : (key, value) ∈ entries ↔ entries.lookup key = some value := by
  induction entries with
  | nil => simp
  | cons e rest ih =>
    obtain ⟨k, v⟩ := e
    obtain ⟨hhead, hrest⟩ := List.pairwise_cons.1 h
    rw [lookup_cons_ite, List.mem_cons]
    by_cases heq : key = k
    · -- no later entry has the key of the first one
      subst heq
      have hnot : (key, value) ∉ rest := fun hmem => String.lt_irrefl key (hhead _ hmem)
      simp [hnot, eq_comm]
    · simp [heq, ih hrest]

/-- An entry with a new key is added, and nothing else changes. -/
theorem insertEntry_perm {key : String} (value : α) {entries : List (String × α)}
    (h : ∀ e ∈ entries, e.1 ≠ key) :
    (insertEntry key value entries).Perm ((key, value) :: entries) := by
  induction entries with
  | nil => exact .refl _
  | cons e rest ih =>
    obtain ⟨k, v⟩ := e
    have hne : ¬ key = k := fun heq => h (k, v) List.mem_cons_self heq.symm
    simp only [insertEntry, if_neg hne]
    split
    · exact .refl _
    · have hrest := ih fun e he => h e (List.mem_cons_of_mem _ he)
      exact (hrest.cons (k, v)).trans (.swap _ _ _)

theorem mem_insertEntry_self (key : String) (value : α) (entries : List (String × α)) :
    (key, value) ∈ insertEntry key value entries := by
  induction entries with
  | nil => exact List.mem_singleton_self _
  | cons e rest ih =>
    obtain ⟨k, v⟩ := e
    simp only [insertEntry]
    split
    · exact List.mem_cons_self
    · split
      · exact List.mem_cons_self
      · exact List.mem_cons_of_mem _ ih

/-- What stands under other keys stays. -/
theorem filter_insertEntry (key : String) (value : α) (entries : List (String × α)) :
    (insertEntry key value entries).filter (·.1 ≠ key) = entries.filter (·.1 ≠ key) := by
  induction entries with
  | nil => simp [insertEntry]
  | cons e rest ih =>
    obtain ⟨k, v⟩ := e
    simp only [insertEntry]
    split
    · simp
    · split
      · rename_i heq
        subst heq
        simp
      · rw [List.filter_cons, List.filter_cons, ih]

/-- A greater key goes to the end. -/
theorem insertEntry_of_lt {key : String} {value : α} {entries : List (String × α)}
    (h : ∀ e ∈ entries, e.1 < key) : insertEntry key value entries = entries ++ [(key, value)] := by
  induction entries with
  | nil => rfl
  | cons e rest ih =>
    obtain ⟨k, v⟩ := e
    have hlt : k < key := h (k, v) List.mem_cons_self
    have hnot : ¬ key < k := fun hgt => String.lt_irrefl k (String.lt_trans hlt hgt)
    have hne : ¬ key = k := fun heq => String.lt_irrefl k (heq ▸ hlt)
    have hrest := ih fun e he => h e (List.mem_cons_of_mem _ he)
    simp only [insertEntry, if_neg hnot, if_neg hne, hrest, List.cons_append]

/-- What is written twice under one key is what was written last. -/
theorem insertEntry_insertEntry (key : String) (value value' : α) (entries : List (String × α)) :
    insertEntry key value' (insertEntry key value entries) = insertEntry key value' entries := by
  induction entries with
  | nil => simp [insertEntry]
  | cons e rest ih =>
    obtain ⟨k, v⟩ := e
    by_cases hlt : key < k
    · simp [insertEntry, hlt]
    · by_cases heq : key = k
      · simp [insertEntry, heq]
      · simp [insertEntry, hlt, heq, ih]

/-- Entries in key order have distinct keys. -/
theorem InKeyOrder.nodup_keys {entries : List (String × α)} (h : InKeyOrder entries) :
    (entries.map (·.1)).Nodup := by
  refine List.pairwise_map.2 (h.imp ?_)
  intro a b hlt heq
  rw [heq] at hlt
  exact String.lt_irrefl b.1 hlt

/-! ## Maps -/

namespace SortedMap

@[simp] theorem get?_empty (key : String) : (∅ : SortedMap α).get? key = none := rfl

@[simp] theorem contains_empty (key : String) : (∅ : SortedMap α).contains key = false := rfl

@[simp] theorem size_empty : (∅ : SortedMap α).size = 0 := rfl

theorem isEmpty_iff {m : SortedMap α} : m.isEmpty = true ↔ m = ∅ := by
  obtain ⟨entries, hkeys⟩ := m
  cases entries with
  | nil => exact ⟨fun _ => rfl, fun _ => rfl⟩
  | cons e entries => exact ⟨fun h => Bool.noConfusion h, fun h => by cases h⟩

theorem get?_insert (m : SortedMap α) (key k : String) (value : α) :
    (m.insert key value).get? k = if k = key then some value else m.get? k :=
  lookup_insertEntry key k value m.entries

@[simp] theorem get?_insert_self (m : SortedMap α) (key : String) (value : α) :
    (m.insert key value).get? key = some value := by
  rw [get?_insert, if_pos rfl]

theorem get?_insert_of_ne (m : SortedMap α) {key k : String} (value : α) (h : k ≠ key) :
    (m.insert key value).get? k = m.get? k := by
  rw [get?_insert, if_neg h]

theorem contains_iff {m : SortedMap α} {key : String} :
    m.contains key = true ↔ ∃ value, m.get? key = some value := by
  unfold contains
  exact Option.isSome_iff_exists

theorem contains_eq_false_iff {m : SortedMap α} {key : String} :
    m.contains key = false ↔ m.get? key = none := by
  simp [contains]

theorem contains_insert (m : SortedMap α) (key k : String) (value : α) :
    (m.insert key value).contains k = (k == key || m.contains k) := by
  unfold contains
  rw [get?_insert]
  by_cases h : k = key <;> simp [h]

/-- An entry that is only written if it is new gives way to what stands there. -/
theorem get?_insertIfNew (m : SortedMap α) (key k : String) (value : α) :
    (m.insertIfNew key value).get? k =
      if k = key then some ((m.get? key).getD value) else m.get? k := by
  unfold insertIfNew
  split
  · rename_i h
    obtain ⟨old, hold⟩ := contains_iff.1 h
    by_cases hk : k = key
    · simp [hk, hold]
    · simp [hk]
  · rename_i h
    have hnone : m.get? key = none := contains_eq_false_iff.1 (Bool.eq_false_iff.2 h)
    simp [get?_insert, hnone]

theorem contains_insertIfNew (m : SortedMap α) (key k : String) (value : α) :
    (m.insertIfNew key value).contains k = (k == key || m.contains k) := by
  unfold contains
  rw [get?_insertIfNew]
  by_cases h : k = key <;> simp [h]

theorem size_insert {m : SortedMap α} {key : String} (value : α) (h : m.contains key = false) :
    (m.insert key value).size = m.size + 1 :=
  length_insertEntry value (contains_eq_false_iff.1 h)

theorem ofList_append_singleton (entries : List (String × α)) (e : String × α) :
    ofList (entries ++ [e]) = (ofList entries).insert e.1 e.2 := by
  rw [ofList, List.foldl_append]
  rfl

/-! ## What a map is determined by -/

theorem mem_entries_iff {m : SortedMap α} {key : String} {value : α} :
    (key, value) ∈ m.entries ↔ m.get? key = some value :=
  m.inKeyOrder.mem_iff_lookup

theorem mem_keys_iff {m : SortedMap α} {key : String} :
    key ∈ m.keys ↔ ∃ value, m.get? key = some value := by
  simp [keys, ← mem_entries_iff]

theorem mem_values_iff {m : SortedMap α} {value : α} :
    value ∈ m.values ↔ ∃ key, m.get? key = some value := by
  simp [values, ← mem_entries_iff]

theorem nodup_entries (m : SortedMap α) : m.entries.Nodup := by
  refine m.inKeyOrder.imp ?_
  intro a b hlt heq
  rw [heq] at hlt
  exact String.lt_irrefl b.1 hlt

/-- Maps that answer alike are equal. -/
theorem ext_get? {m m' : SortedMap α} (h : ∀ key, m.get? key = m'.get? key) : m = m' := by
  have hmem : ∀ e, e ∈ m.entries ↔ e ∈ m'.entries := by
    intro e
    rw [mem_entries_iff, mem_entries_iff, h]
  have hperm : m.entries.Perm m'.entries :=
    (List.perm_ext_iff_of_nodup m.nodup_entries m'.nodup_entries).2 hmem
  have hentries : m.entries = m'.entries := by
    refine List.Perm.eq_of_pairwise ?_ m.inKeyOrder m'.inKeyOrder hperm
    intro a b _ _ hab hba
    exact absurd (String.lt_trans hab hba) (String.lt_irrefl a.1)
  obtain ⟨entries, horder⟩ := m
  obtain ⟨entries', horder'⟩ := m'
  obtain rfl : entries = entries' := hentries
  rfl

/-- What is written twice under one key is what was written last. -/
theorem insert_insert (m : SortedMap α) (key : String) (value value' : α) :
    (m.insert key value).insert key value' = m.insert key value' := by
  apply ext_get?
  intro k
  rw [get?_insert, get?_insert, get?_insert]
  split <;> rfl

theorem get?_foldl_insert {entries : List (String × α)} (h : (entries.map (·.1)).Nodup)
    (m : SortedMap α) {key : String} {value : α} :
    (entries.foldl (fun m e => m.insert e.1 e.2) m).get? key = some value ↔
      (key, value) ∈ entries ∨ (m.get? key = some value ∧ ∀ e ∈ entries, e.1 ≠ key) := by
  induction entries generalizing m with
  | nil => simp
  | cons e rest ih =>
    obtain ⟨k, v⟩ := e
    obtain ⟨hnew, hrest⟩ := List.nodup_cons.1 h
    rw [List.foldl_cons, ih hrest, get?_insert]
    by_cases hk : key = k
    · -- no later entry has this key, so the first one counts
      subst hk
      have hothers : ∀ e ∈ rest, e.1 ≠ key := by
        intro e he heq
        exact hnew (List.mem_map.2 ⟨e, he, heq⟩)
      have hnot : (key, value) ∉ rest := fun hmem => hothers _ hmem rfl
      rw [if_pos rfl, Option.some_inj]
      constructor
      · rintro (hmem | ⟨rfl, -⟩)
        · exact absurd hmem hnot
        · exact .inl List.mem_cons_self
      · rintro (hmem | ⟨-, hfree⟩)
        · rcases List.mem_cons.1 hmem with heq | hmem
          · exact .inr ⟨(Prod.mk.inj heq).2.symm, hothers⟩
          · exact absurd hmem hnot
        · exact absurd rfl (hfree (key, v) List.mem_cons_self)
    · have hne : ¬ k = key := fun heq => hk heq.symm
      simp [hk, hne]

/-- In a list without repeated keys no entry replaces another one. -/
theorem get?_ofList_iff {entries : List (String × α)} (h : (entries.map (·.1)).Nodup) {key : String}
    {value : α} : (ofList entries).get? key = some value ↔ (key, value) ∈ entries := by
  have hempty : (empty : SortedMap α).get? key = none := rfl
  simp [ofList, get?_foldl_insert h, hempty]

/-- Of the values that a list has under a key the last one counts. -/
theorem get?_foldl_insert_last (entries : List (String × α)) (m : SortedMap α) (key : String) :
    (entries.foldl (fun m e => m.insert e.1 e.2) m).get? key =
      ((entries.filter (·.1 == key)).map (·.2)).getLast?.or (m.get? key) := by
  induction entries generalizing m with
  | nil => rfl
  | cons e rest ih =>
    rw [List.foldl_cons, ih, get?_insert]
    by_cases h : key = e.1
    · simp [h, List.getLast?_cons, Option.or_some]
    · simp [h, Ne.symm h]

/-- So the entries may come in any order in which the values under each key keep theirs. -/
theorem ofList_congr {entries entries' : List (String × α)}
    (h : ∀ key, (entries.filter (·.1 == key)).map (·.2) = (entries'.filter (·.1 == key)).map (·.2)) :
    ofList entries = ofList entries' := by
  apply ext_get?
  intro key
  rw [ofList, ofList, get?_foldl_insert_last, get?_foldl_insert_last, h]

/-- Two values under one key must not change places. -/
example : ofList [("a", 1), ("a", 2)] ≠ ofList [("a", 2), ("a", 1)] := by decide

/-- A map is the map of its entries, in whatever order they are. -/
theorem ofList_of_perm {m : SortedMap α} {entries : List (String × α)}
    (h : entries.Perm m.entries) : ofList entries = m := by
  have hnodup : (entries.map (·.1)).Nodup := (h.map _).nodup_iff.2 m.inKeyOrder.nodup_keys
  apply ext_get?
  intro key
  apply Option.ext
  intro value
  rw [get?_ofList_iff hnodup, h.mem_iff, mem_entries_iff]

end SortedMap

/-! ## Sets -/

namespace SortedSet

theorem contains_insert (s : SortedSet) (x y : String) :
    (s.insert x).contains y = (y == x || s.contains y) :=
  SortedMap.contains_insert s x y ()

/-- Sets with the same elements are equal. -/
theorem ext_contains {s s' : SortedSet} (h : ∀ x, s.contains x = s'.contains x) : s = s' := by
  refine SortedMap.ext_get? ?_
  intro x
  have hx : (SortedMap.get? s x).isSome = (SortedMap.get? s' x).isSome := h x
  -- the values carry no information
  cases hs : SortedMap.get? s x with
  | none =>
    have hnone : SortedMap.get? s' x = none := by simpa [hs] using hx.symm
    exact hnone.symm
  | some u =>
    obtain ⟨v, hv⟩ : ∃ v, SortedMap.get? s' x = some v := by
      simpa [hs, Option.isSome_iff_exists] using hx.symm
    exact hv.symm

theorem insert_insert_self (s : SortedSet) (x : String) : (s.insert x).insert x = s.insert x := by
  apply ext_contains
  intro y
  rw [contains_insert, contains_insert, ← Bool.or_assoc, Bool.or_self]

theorem insert_comm (s : SortedSet) (x y : String) :
    (s.insert x).insert y = (s.insert y).insert x := by
  apply ext_contains
  intro z
  rw [contains_insert, contains_insert, contains_insert, contains_insert, Bool.or_left_comm]

theorem ofList_append_singleton (xs : List String) (x : String) :
    ofList (xs ++ [x]) = (ofList xs).insert x := by
  rw [ofList, List.foldl_append]
  rfl

theorem contains_foldl_insert (s : SortedSet) (xs : List String) (x : String) :
    (xs.foldl insert s).contains x = (s.contains x || xs.contains x) := by
  induction xs generalizing s with
  | nil => simp
  | cons y ys ih =>
    rw [List.foldl_cons, ih, contains_insert, List.contains_cons, Bool.or_assoc, Bool.or_left_comm]

theorem contains_ofList (xs : List String) (x : String) :
    (ofList xs).contains x = xs.contains x := by
  rw [ofList, contains_foldl_insert]
  rfl

theorem mem_iff_contains {s : SortedSet} {x : String} : x ∈ s ↔ s.contains x = true := by
  have hkeys : x ∈ SortedMap.keys s ↔ SortedMap.contains s x = true :=
    SortedMap.mem_keys_iff.trans SortedMap.contains_iff.symm
  exact hkeys

theorem mem_insert {s : SortedSet} {x y : String} : y ∈ s.insert x ↔ y = x ∨ y ∈ s := by
  rw [mem_iff_contains, mem_iff_contains, contains_insert, Bool.or_eq_true, beq_iff_eq]

theorem mem_ofList {xs : List String} {x : String} : x ∈ ofList xs ↔ x ∈ xs := by
  rw [mem_iff_contains, contains_ofList, List.contains_iff_mem]

theorem ofList_toList (s : SortedSet) : ofList s.toList = s := by
  apply ext_contains
  intro x
  have hmem : x ∈ s.toList ↔ s.contains x = true := mem_iff_contains
  rw [contains_ofList, Bool.eq_iff_iff, List.contains_iff_mem, hmem]

/-- The set of a list does not depend on the order of the list. -/
theorem ofList_perm {xs ys : List String} (h : xs.Perm ys) : ofList xs = ofList ys := by
  refine ext_contains ?_
  intro x
  rw [contains_ofList, contains_ofList, h.contains_eq]

/-- The set of a list, if there is anything in the list. -/
def ofList? (xs : List String) : Option SortedSet :=
  if xs = [] then none else some (ofList xs)

/-- Reading an absent set as an empty one gives the set of the list in both cases. -/
theorem getD_ofList? (xs : List String) : (ofList? xs).getD ∅ = ofList xs := by
  unfold ofList?
  split
  · rename_i hnil
    subst hnil
    rfl
  · rfl

theorem ofList?_append_singleton (xs : List String) (x : String) :
    ofList? (xs ++ [x]) = some ((ofList xs).insert x) := by
  rw [ofList?, if_neg (by simp), ofList_append_singleton]

theorem ofList?_eq_some_iff {xs : List String} {s : SortedSet} :
    ofList? xs = some s ↔ xs ≠ [] ∧ ofList xs = s := by
  unfold ofList?
  split
  · rename_i hnil
    simp [hnil]
  · rename_i hcons
    simp [hcons]

theorem ofList?_perm {xs ys : List String} (h : xs.Perm ys) : ofList? xs = ofList? ys := by
  have hnil : xs = [] ↔ ys = [] := by
    rw [← List.length_eq_zero_iff, h.length_eq, List.length_eq_zero_iff]
  simp only [ofList?, hnil, ofList_perm h]

end SortedSet

end SchemaRegistry
