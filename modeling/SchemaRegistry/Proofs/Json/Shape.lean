import SchemaRegistry.Json.Value
import SchemaRegistry.Proofs.SortedMap

/-!
# The shape of values

What a value has to be like so that its text says all of it: numbers are integers, and no object has a
key twice (`Value.Plain`). And how deep it goes (`Value.depth`), which a reader may limit.

Sorting keys keeps this shape. What is sorted is in key order (`ordered_sortKeys`), and what is in key
order already is left alone (`sortKeys_of_ordered`); of an object without repeated keys it only
rearranges the members (`sortMembers_perm`).
-/

namespace SchemaRegistry.Json.Value

/-! ## Plain values -/

mutual

/-- Numbers are integers, and the keys of every object are distinct. -/
def Plain : Value → Prop
  | .null | .boolean _ | .text _ => True
  | .number n => ∃ k h, n = .integer k h
  | .array items => AllPlain items
  | .object members => (members.map (·.1)).Nodup ∧ MembersPlain members

/-- `Plain` for every item. -/
def AllPlain : List Value → Prop
  | [] => True
  | v :: rest => Plain v ∧ AllPlain rest

/-- `Plain` for every value of a member. -/
def MembersPlain : List (String × Value) → Prop
  | [] => True
  | (_, v) :: rest => Plain v ∧ MembersPlain rest

end

theorem allPlain_iff {items : List Value} : AllPlain items ↔ ∀ v ∈ items, v.Plain := by
  induction items with
  | nil => simp [AllPlain]
  | cons v rest ih => simp [AllPlain, ih]

theorem membersPlain_iff {members : List (String × Value)} :
    MembersPlain members ↔ ∀ m ∈ members, m.2.Plain := by
  induction members with
  | nil => simp [MembersPlain]
  | cons m rest ih =>
    obtain ⟨k, v⟩ := m
    simp [MembersPlain, ih]

/-! ## Depth -/

mutual

/-- How many arrays and objects stand inside each other. -/
def depth : Value → Nat
  | .null | .boolean _ | .number _ | .text _ => 0
  | .array items => itemsDepth items + 1
  | .object members => membersDepth members + 1

/-- The greatest depth of an item. -/
def itemsDepth : List Value → Nat
  | [] => 0
  | v :: rest => max (depth v) (itemsDepth rest)

/-- The greatest depth of the value of a member. -/
def membersDepth : List (String × Value) → Nat
  | [] => 0
  | (_, v) :: rest => max (depth v) (membersDepth rest)

end

theorem itemsDepth_le_iff {items : List Value} {n : Nat} :
    itemsDepth items ≤ n ↔ ∀ v ∈ items, v.depth ≤ n := by
  induction items with
  | nil => simp [itemsDepth]
  | cons v rest ih => rw [itemsDepth, Nat.max_le, ih, List.forall_mem_cons]

theorem membersDepth_le_iff {members : List (String × Value)} {n : Nat} :
    membersDepth members ≤ n ↔ ∀ m ∈ members, m.2.depth ≤ n := by
  induction members with
  | nil => simp [membersDepth]
  | cons m rest ih =>
    obtain ⟨k, v⟩ := m
    rw [membersDepth, Nat.max_le, ih, List.forall_mem_cons]

/-! ## Sorting keys -/

theorem sortMembers_append (entries ms ns : List (String × Value)) :
    sortMembers entries (ms ++ ns) = sortMembers (sortMembers entries ms) ns := by
  induction ms generalizing entries with
  | nil => rfl
  | cons m ms ih =>
    obtain ⟨k, v⟩ := m
    rw [List.cons_append, sortMembers, ih, sortMembers]

/-- The members, sorted inside, join the entries if they bring keys of their own. -/
theorem sortMembers_perm {entries members : List (String × Value)}
    (h : ((entries ++ members).map (·.1)).Nodup) :
    (sortMembers entries members).Perm (entries ++ members.map fun m => (m.1, m.2.sortKeys)) := by
  induction members generalizing entries with
  | nil => simp [sortMembers]
  | cons m members ih =>
    obtain ⟨k, v⟩ := m
    -- no entry is replaced by this member
    have hnew : ∀ e ∈ entries, e.1 ≠ k := by
      intro e he heq
      rw [List.map_append, List.nodup_append] at h
      exact h.2.2 e.1 (List.mem_map_of_mem he) k (by simp) heq
    have hinsert := insertEntry_perm v.sortKeys hnew
    have hkeys : ((insertEntry k v.sortKeys entries ++ members).map (·.1)).Nodup := by
      have hperm : ((insertEntry k v.sortKeys entries ++ members).map (·.1)).Perm
          ((entries ++ (k, v) :: members).map (·.1)) := by
        have hmoved := (hinsert.append_right members).map (·.1)
        simp only [List.cons_append, List.map_cons, List.map_append] at hmoved ⊢
        exact hmoved.trans List.perm_middle.symm
      exact hperm.nodup_iff.2 h
    have hsorted := ih hkeys
    rw [sortMembers]
    refine hsorted.trans ((hinsert.append_right _).trans ?_)
    simpa using List.perm_middle.symm

/-- Of an object without repeated keys the members are rearranged. -/
theorem sortMembers_nil_perm {members : List (String × Value)} (h : (members.map (·.1)).Nodup) :
    (sortMembers [] members).Perm (members.map fun m => (m.1, m.2.sortKeys)) :=
  sortMembers_perm (by simpa using h)

mutual

/-- What is sorted is in key order. -/
theorem ordered_sortKeys : ∀ v : Value, v.sortKeys.Ordered
  | .null | .boolean _ | .number _ | .text _ => trivial
  | .array items => allOrdered_sortItems items
  | .object members => ordered_sortMembers members List.Pairwise.nil trivial

theorem allOrdered_sortItems : ∀ items : List Value, AllOrdered (sortItems items)
  | [] => trivial
  | v :: rest => ⟨ordered_sortKeys v, allOrdered_sortItems rest⟩

theorem ordered_sortMembers : ∀ (members : List (String × Value)) {entries : List (String × Value)},
    InKeyOrder entries → MembersOrdered entries →
      InKeyOrder (sortMembers entries members) ∧ MembersOrdered (sortMembers entries members)
  | [], _, hkeys, hordered => ⟨hkeys, hordered⟩
  | (_, v) :: rest, _, hkeys, hordered =>
    ordered_sortMembers rest hkeys.insertEntry (hordered.insertEntry (ordered_sortKeys v))

end

mutual

/-- What is in key order stays as it is. -/
theorem sortKeys_of_ordered : ∀ {v : Value}, v.Ordered → v.sortKeys = v
  | .null, _ | .boolean _, _ | .number _, _ | .text _, _ => rfl
  | .array items, h => by
    rw [sortKeys, sortItems_of_allOrdered h]
  | .object members, ⟨hkeys, hmembers⟩ => by
    have hmerged : sortMembers [] members = [] ++ members := sortMembers_of_ordered hmembers hkeys
    rw [sortKeys, hmerged, List.nil_append]

theorem sortItems_of_allOrdered : ∀ {items : List Value}, AllOrdered items → sortItems items = items
  | [], _ => rfl
  | v :: rest, ⟨hv, hrest⟩ => by
    rw [sortItems, sortKeys_of_ordered hv, sortItems_of_allOrdered hrest]

theorem sortMembers_of_ordered : ∀ {members entries : List (String × Value)},
    MembersOrdered members → InKeyOrder (entries ++ members) →
      sortMembers entries members = entries ++ members
  | [], entries, _, _ => by rw [sortMembers, List.append_nil]
  | (k, v) :: rest, entries, ⟨hv, hrest⟩, hkeys => by
    have hlt : ∀ e ∈ entries, e.1 < k := by
      intro e he
      exact (List.pairwise_append.1 hkeys).2.2 e he (k, v) List.mem_cons_self
    have hassoc : entries ++ (k, v) :: rest = entries ++ [(k, v)] ++ rest := by simp
    rw [hassoc] at hkeys
    rw [sortMembers, sortKeys_of_ordered hv, insertEntry_of_lt hlt, sortMembers_of_ordered hrest hkeys,
      hassoc]

end

mutual

theorem plain_sortKeys : ∀ {v : Value}, v.Plain → v.sortKeys.Plain
  | .null, h | .boolean _, h | .number _, h | .text _, h => h
  | .array _, h => allPlain_sortItems h
  | .object members, ⟨_, hmembers⟩ =>
    ⟨(ordered_sortMembers members List.Pairwise.nil trivial).1.nodup_keys,
      membersPlain_sortMembers hmembers trivial⟩

theorem allPlain_sortItems : ∀ {items : List Value}, AllPlain items → AllPlain (sortItems items)
  | [], _ => trivial
  | _ :: _, ⟨hv, hrest⟩ => ⟨plain_sortKeys hv, allPlain_sortItems hrest⟩

theorem membersPlain_sortMembers : ∀ {members entries : List (String × Value)},
    MembersPlain members → MembersPlain entries → MembersPlain (sortMembers entries members)
  | [], _, _, hentries => hentries
  | (k, v) :: rest, entries, ⟨hv, hrest⟩, hentries => by
    rw [sortMembers]
    refine membersPlain_sortMembers hrest (membersPlain_iff.2 ?_)
    intro m hm
    rcases mem_insertEntry hm with rfl | hm
    · exact plain_sortKeys hv
    · exact membersPlain_iff.1 hentries m hm

end

end SchemaRegistry.Json.Value
