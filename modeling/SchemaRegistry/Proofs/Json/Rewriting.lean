import Mathlib.Data.List.Forall2
import Mathlib.Data.List.Perm.Basic
import SchemaRegistry.Proofs.Json.Data
import SchemaRegistry.Proofs.Json.Object

/-!
# Other ways to write the same

A JSON value can be written in many ways. A `Rewriting` says of a type which ways there are, one place of
the value at a time: the members of an object may come in another order (`Reordered`), and what stands in
an array or object may itself be written in another way. A map has these freedoms, and data have them at
every depth. Text that is read as it stands has none.

A reader respects a rewriting (`Reader.Respects`) if it reads from the new tree what it reads from the old
one. Lists, maps and data do so (`Codec.Respects.list`, `Codec.Respects.map`, `respects_data`): their parts
are read one by one, and of the order of the members nothing remains but which value came last under each
key.
-/

namespace SchemaRegistry.Json

variable {α β : Type}

/-! ## Trees without a fault -/

namespace Tree

mutual

/-- Nothing in the tree breaks off. -/
def WellFormed : Tree → Prop
  | .null | .boolean _ | .number _ | .string _ => True
  | .array items ending => ItemsWellFormed items ∧ ending = .closed
  | .object members ending => MembersWellFormed members ∧ ending = .closed
  | .broken _ => False

/-- `WellFormed` for every item. -/
def ItemsWellFormed : List Tree → Prop
  | [] => True
  | t :: rest => WellFormed t ∧ ItemsWellFormed rest

/-- `WellFormed` for every value of a member. -/
def MembersWellFormed : List (List Piece × Tree) → Prop
  | [] => True
  | (_, t) :: rest => WellFormed t ∧ MembersWellFormed rest

end

theorem itemsWellFormed_iff {items : List Tree} :
    ItemsWellFormed items ↔ ∀ t ∈ items, t.WellFormed := by
  induction items with
  | nil => simp [ItemsWellFormed]
  | cons t rest ih => simp [ItemsWellFormed, ih]

theorem membersWellFormed_iff {members : List (List Piece × Tree)} :
    MembersWellFormed members ↔ ∀ e ∈ members, e.2.WellFormed := by
  induction members with
  | nil => simp [MembersWellFormed]
  | cons e rest ih =>
    obtain ⟨pieces, t⟩ := e
    simp [MembersWellFormed, ih]

end Tree

theorem ArrayEnd.skip_eq_ok_iff {ending : ArrayEnd} : ending.skip = .ok () ↔ ending = .closed := by
  cases ending with
  | missing found => cases found <;> simp [skip, check]
  | _ => simp [skip, check]

theorem ObjectEnd.skip_eq_ok_iff {ending : ObjectEnd} : ending.skip = .ok () ↔ ending = .closed := by
  cases ending with
  | missing found => cases found <;> simp [skip, check]
  | _ => simp [skip, check]

namespace Tree

mutual

/-- What is well formed can be passed over, and nothing else. -/
theorem skip_eq_ok_iff : ∀ {t : Tree}, t.skip = .ok () ↔ t.WellFormed
  | .null | .boolean _ | .number _ | .string _ => iff_of_true rfl trivial
  | .array items ending => by
    rw [skip, WellFormed, andThen_eq_ok_iff, skipItems_eq_ok_iff, ArrayEnd.skip_eq_ok_iff]
  | .object members ending => by
    rw [skip, WellFormed, andThen_eq_ok_iff, skipMembers_eq_ok_iff, ObjectEnd.skip_eq_ok_iff]
  | .broken _ => iff_of_false (fun h => by cases h) id

theorem skipItems_eq_ok_iff : ∀ {items : List Tree}, skipItems items = .ok () ↔ ItemsWellFormed items
  | [] => iff_of_true rfl trivial
  | t :: rest => by
    rw [skipItems, ItemsWellFormed, andThen_eq_ok_iff, skip_eq_ok_iff, skipItems_eq_ok_iff]

theorem skipMembers_eq_ok_iff : ∀ {members : List (List Piece × Tree)},
    skipMembers members = .ok () ↔ MembersWellFormed members
  | [] => iff_of_true rfl trivial
  | (_, t) :: rest => by
    rw [skipMembers, MembersWellFormed, andThen_eq_ok_iff, skip_eq_ok_iff, skipMembers_eq_ok_iff]

end

end Tree

/-! ## Rewritings -/

/-- The same members in another order. Values that stand under one key keep their order, since the last
of them may be the one that counts. -/
structure Reordered (members members' : List (List Piece × Tree)) : Prop where
  perm : members.Perm members'
  valuesUnder_eq : ∀ key, valuesUnder key members = valuesUnder key members'

/-- A single value under a key stays the same in any order of the members. -/
theorem valuesUnder_eq_of_perm {key : String} {members members' : List (List Piece × Tree)}
    (h : members.Perm members') (hone : (valuesUnder key members).length ≤ 1) :
    valuesUnder key members = valuesUnder key members' := by
  have hperm : (valuesUnder key members).Perm (valuesUnder key members') := (h.filter _).map _
  match hvalues : valuesUnder key members with
  | [] =>
    rw [hvalues] at hperm
    exact (List.nil_perm.1 hperm).symm
  | [t] =>
    rw [hvalues] at hperm
    exact (List.perm_singleton.1 hperm.symm).symm
  | _ :: _ :: _ =>
    rw [hvalues] at hone
    simp at hone

/-- Where no key is repeated, the members may come in any other order. -/
theorem reordered_of_perm {members members' : List (List Piece × Tree)}
    (hkeys : (members.map fun e => (spellString e.1).toOption).Nodup) (h : members.Perm members') :
    Reordered members members' := by
  refine ⟨h, fun key => valuesUnder_eq_of_perm h ?_⟩
  -- several members under the key would repeat it
  let under := members.filter fun e => (spellString e.1).toOption == some key
  have hsame : ∀ spelled ∈ under.map fun e => (spellString e.1).toOption, spelled = some key := by
    intro spelled hspelled
    obtain ⟨e, he, rfl⟩ := List.mem_map.1 hspelled
    exact beq_iff_eq.1 (List.mem_filter.1 he).2
  have hnodup : (under.map fun e => (spellString e.1).toOption).Nodup :=
    hkeys.sublist (List.filter_sublist.map _)
  rw [List.eq_replicate_of_mem hsame, List.nodup_replicate, List.length_map] at hnodup
  rwa [valuesUnder, List.length_map]

/-- What may be written in another way, as a relation between a tree and another way to write it. -/
abbrev Rewriting := Tree → Tree → Prop

namespace Rewriting

/-- Nothing may be written in another way. -/
def fixed : Rewriting := fun _ _ => False

/-- An item of an array is written in another way. -/
inductive list (w : Rewriting) : Rewriting where
  | item (before after : List Tree) {ending : ArrayEnd} {t t' : Tree} (h : w t t') :
    list w (.array (before ++ t :: after) ending) (.array (before ++ t' :: after) ending)

/-- The members of an object come in another order, or the value of one of them is written in another
way. -/
inductive map (w : Rewriting) : Rewriting where
  | reorder {members members' : List (List Piece × Tree)} {ending : ObjectEnd}
    (h : Reordered members members') : map w (.object members ending) (.object members' ending)
  | value (before after : List (List Piece × Tree)) {ending : ObjectEnd} {pieces : List Piece}
    {t t' : Tree} (h : w t t') :
    map w (.object (before ++ (pieces, t) :: after) ending)
      (.object (before ++ (pieces, t') :: after) ending)

/-- At any depth the members of an object come in another order. -/
inductive data : Rewriting where
  | reorder {members members' : List (List Piece × Tree)} {ending : ObjectEnd}
    (h : Reordered members members') : data (.object members ending) (.object members' ending)
  | value (before after : List (List Piece × Tree)) {ending : ObjectEnd} {pieces : List Piece}
    {t t' : Tree} (h : data t t') :
    data (.object (before ++ (pieces, t) :: after) ending)
      (.object (before ++ (pieces, t') :: after) ending)
  | item (before after : List Tree) {ending : ArrayEnd} {t t' : Tree} (h : data t t') :
    data (.array (before ++ t :: after) ending) (.array (before ++ t' :: after) ending)

end Rewriting

/-- Data that are rewritten remain well formed. -/
theorem Tree.WellFormed.rewritten {t t' : Tree} (h : t.WellFormed) (hw : Rewriting.data t t') :
    t'.WellFormed := by
  induction hw with
  | reorder hre =>
    obtain ⟨hmembers, hending⟩ := h
    rw [membersWellFormed_iff] at hmembers
    exact ⟨membersWellFormed_iff.2 fun e he => hmembers e (hre.perm.mem_iff.2 he), hending⟩
  | value _ _ _ ih =>
    obtain ⟨hmembers, hending⟩ := h
    rw [membersWellFormed_iff, List.forall_mem_append, List.forall_mem_cons] at hmembers
    obtain ⟨hbefore, ht, hafter⟩ := hmembers
    exact ⟨membersWellFormed_iff.2 (List.forall_mem_append.2
      ⟨hbefore, List.forall_mem_cons.2 ⟨ih ht, hafter⟩⟩), hending⟩
  | item _ _ _ ih =>
    obtain ⟨hitems, hending⟩ := h
    rw [itemsWellFormed_iff, List.forall_mem_append, List.forall_mem_cons] at hitems
    obtain ⟨hbefore, ht, hafter⟩ := hitems
    exact ⟨itemsWellFormed_iff.2 (List.forall_mem_append.2
      ⟨hbefore, List.forall_mem_cons.2 ⟨ih ht, hafter⟩⟩), hending⟩

/-! ## Reading what is rewritten -/

/-- What is read from the first tree, with room for `n` more arrays and objects inside each other, is read
from the second one as well. -/
def Reader.Follows (r : Reader α) (n : Nat) (t t' : Tree) : Prop :=
  ∀ (s : Scope) (a : α), n ≤ s.depth → r s t = .ok a → r s t' = .ok a

/-- What is read from a tree is read from every other way to write it. -/
def Reader.Respects (r : Reader α) (n : Nat) (w : Rewriting) : Prop :=
  ∀ t t', w t t' → r.Follows n t t'

/-- The same of the reader of a codec. -/
def Codec.Respects (c : Codec α) (n : Nat) (w : Rewriting) : Prop := c.read.Respects n w

theorem Codec.respects_fixed (c : Codec α) (n : Nat) : c.Respects n .fixed :=
  fun _ _ h => h.elim

theorem Scope.depth_of_enter {s inner : Scope} (h : s.enter = .ok inner) :
    inner.depth + 1 = s.depth := by
  unfold enter at h
  split at h
  · cases h
  · cases h
    dsimp only
    omega

section Pointwise

variable {R : α → β → Prop} {xs xs' : List α} {ys : List β}

/-- What holds of the elements one by one, holds if it carries over from each of them to the next. -/
theorem forall₂_of_imp (h : List.Forall₂ (fun x x' => ∀ y, R x y → R x' y) xs xs')
    (hys : List.Forall₂ R xs ys) : List.Forall₂ R xs' ys := by
  induction h generalizing ys with
  | nil => exact hys
  | cons hfirst _ ih =>
    cases hys with
    | cons hy hrest => exact .cons (hfirst _ hy) (ih hrest)

/-- One element is replaced, the others stay. -/
theorem forall₂_replace {P : α → α → Prop} (hrefl : ∀ x, P x x) {x x' : α} (h : P x x')
    (before after : List α) : List.Forall₂ P (before ++ x :: after) (before ++ x' :: after) :=
  List.rel_append (List.forall₂_same.2 fun y _ => hrefl y)
    (.cons h (List.forall₂_same.2 fun y _ => hrefl y))

end Pointwise

namespace Reader

variable {r : Reader α} {n : Nat} {s : Scope}

/-! ### Lists -/

theorem Follows.item {t t' : Tree} (h : r.Follows (n - 1) t t') (before after : List Tree)
    (ending : ArrayEnd) :
    (list r).Follows n (.array (before ++ t :: after) ending)
      (.array (before ++ t' :: after) ending) := by
  intro s as hdepth hread
  obtain ⟨inner, hinner, hend, hitems⟩ := list_array_eq_ok_iff.1 hread
  have hroom := Scope.depth_of_enter hinner
  have hitem : ∀ a, r inner t = .ok a → r inner t' = .ok a := fun a => h inner a (by omega)
  exact list_array_eq_ok_iff.2 ⟨inner, hinner, hend,
    forall₂_of_imp (forall₂_replace (fun _ _ => id) hitem before after) hitems⟩

/-! ### Maps -/

/-- Reads a member of an object as an entry. -/
def entry (r : Reader α) (s : Scope) (member : List Piece × Tree) : Except Fault (String × α) := do
  let key ← spellString member.1
  return (key, ← r s member.2)

theorem entry_eq_ok_iff {member : List Piece × Tree} {e : String × α} :
    r.entry s member = .ok e ↔ spellString member.1 = .ok e.1 ∧ r s member.2 = .ok e.2 := by
  rw [entry, bind_eq_ok_iff]
  constructor
  · rintro ⟨key, hkey, h⟩
    obtain ⟨a, ha, h⟩ := bind_eq_ok_iff.1 h
    obtain rfl := Except.ok.inj h
    exact ⟨hkey, ha⟩
  · rintro ⟨hkey, ha⟩
    exact ⟨_, hkey, bind_eq_ok_iff.2 ⟨_, ha, rfl⟩⟩

theorem map_object (r : Reader α) (s : Scope) (members : List (List Piece × Tree))
    (ending : ObjectEnd) :
    map r s (.object members ending) = (do
      let inner ← s.enter
      let entries ← members.mapM (r.entry inner)
      ending.check
      return SortedMap.ofList entries) := rfl

theorem map_object_eq_ok_iff {members : List (List Piece × Tree)} {ending : ObjectEnd}
    {m : SortedMap α} :
    map r s (.object members ending) = .ok m ↔
      ∃ inner, s.enter = .ok inner ∧ ending = .closed ∧
        ∃ entries, List.Forall₂ (fun e entry => r.entry inner e = .ok entry) members entries ∧
          SortedMap.ofList entries = m := by
  rw [map_object, bind_eq_ok_iff]
  constructor
  · rintro ⟨inner, hinner, h⟩
    obtain ⟨entries, hentries, h⟩ := bind_eq_ok_iff.1 h
    obtain ⟨hend, h⟩ := andThen_eq_ok_iff.1 h
    exact ⟨inner, hinner, ObjectEnd.check_eq_ok_iff.1 hend, entries, mapM_eq_ok_iff.1 hentries,
      Except.ok.inj h⟩
  · rintro ⟨inner, hinner, hend, entries, hentries, rfl⟩
    exact ⟨inner, hinner, bind_eq_ok_iff.2 ⟨entries, mapM_eq_ok_iff.2 hentries,
      andThen_eq_ok_iff.2 ⟨ObjectEnd.check_eq_ok_iff.2 hend, rfl⟩⟩⟩

/-- The values of the entries with a key are read from what the object gives under it. -/
theorem forall₂_valuesUnder {members : List (List Piece × Tree)} {entries : List (String × α)}
    (h : List.Forall₂ (fun e entry => r.entry s e = .ok entry) members entries) (key : String) :
    List.Forall₂ (fun t a => r s t = .ok a) (valuesUnder key members)
      ((entries.filter (·.1 == key)).map (·.2)) := by
  induction h with
  | nil => exact .nil
  | @cons member e members entries hfirst _ ih =>
    obtain ⟨pieces, t⟩ := member
    obtain ⟨other, a⟩ := e
    obtain ⟨hspell, hvalue⟩ := entry_eq_ok_iff.1 hfirst
    by_cases h : other = key
    · subst h
      rw [valuesUnder_cons_self hspell, List.filter_cons_of_pos (by simp)]
      exact .cons hvalue ih
    · rw [valuesUnder_cons_of_ne hspell (Ne.symm h), List.filter_cons_of_neg (by simpa using h)]
      exact ih

theorem follows_reorder {members members' : List (List Piece × Tree)} (h : Reordered members members')
    (ending : ObjectEnd) : (map r).Follows n (.object members ending) (.object members' ending) := by
  intro s m _ hread
  obtain ⟨inner, hinner, hend, entries, hentries, rfl⟩ := map_object_eq_ok_iff.1 hread
  obtain ⟨entries', hentries', -⟩ := List.perm_comp_forall₂ h.perm.symm hentries
  refine map_object_eq_ok_iff.2 ⟨inner, hinner, hend, entries', hentries', ?_⟩
  refine SortedMap.ofList_congr fun key => ?_
  -- the values under the key are read from the same trees
  have hvalues := forall₂_valuesUnder hentries key
  rw [h.valuesUnder_eq] at hvalues
  refine List.right_unique_forall₂' ?_ (forall₂_valuesUnder hentries' key) hvalues
  intro t a a' ha ha'
  exact Except.ok.inj (ha.symm.trans ha')

theorem Follows.value {t t' : Tree} (h : r.Follows (n - 1) t t')
    (before after : List (List Piece × Tree)) (ending : ObjectEnd) (pieces : List Piece) :
    (map r).Follows n (.object (before ++ (pieces, t) :: after) ending)
      (.object (before ++ (pieces, t') :: after) ending) := by
  intro s m hdepth hread
  obtain ⟨inner, hinner, hend, entries, hentries, rfl⟩ := map_object_eq_ok_iff.1 hread
  have hroom := Scope.depth_of_enter hinner
  have hvalue : ∀ e, r.entry inner (pieces, t) = .ok e → r.entry inner (pieces, t') = .ok e := by
    intro e he
    obtain ⟨hspell, ha⟩ := entry_eq_ok_iff.1 he
    exact entry_eq_ok_iff.2 ⟨hspell, h inner e.2 (by omega) ha⟩
  exact map_object_eq_ok_iff.2 ⟨inner, hinner, hend, entries,
    forall₂_of_imp (forall₂_replace (fun _ _ => id) hvalue before after) hentries, rfl⟩

/-! ### Data -/

theorem anyItems_eq_mapM (s : Scope) (items : List Tree) :
    anyItems s items = items.mapM (anyValue s) := by
  induction items with
  | nil => rfl
  | cons t rest ih => rw [anyItems, List.mapM_cons, ih]

/-- An array is read as the list of its items. -/
theorem anyValue_array (s : Scope) (items : List Tree) (ending : ArrayEnd) :
    anyValue s (.array items ending) = (list anyValue s (.array items ending)).map .array := by
  rw [anyValue, list]
  cases s.enter with
  | error fault => rfl
  | ok inner =>
    simp only [bind, Except.bind, anyItems_eq_mapM]
    cases items.mapM (anyValue inner) with
    | error fault => rfl
    | ok values => cases ending.check <;> rfl

theorem anyMembers_eq_mapM (s : Scope) (members : List (List Piece × Tree)) (m : SortedMap Value) :
    anyMembers s m.entries members = (members.mapM (Reader.entry anyValue s)).map fun entries =>
      (entries.foldl (fun m e => m.insert e.1 e.2) m).entries := by
  induction members generalizing m with
  | nil => rfl
  | cons e rest ih =>
    obtain ⟨pieces, t⟩ := e
    rw [anyMembers, List.mapM_cons, entry]
    cases spellString pieces with
    | error fault => rfl
    | ok key =>
      simp only [bind, Except.bind]
      cases anyValue s t with
      | error fault => rfl
      | ok v =>
        refine (ih (m.insert key v)).trans ?_
        simp only [pure, Except.pure]
        cases rest.mapM (Reader.entry anyValue s) <;> rfl

/-- An object is read as the map of its members. -/
theorem anyValue_object (s : Scope) (members : List (List Piece × Tree)) (ending : ObjectEnd) :
    anyValue s (.object members ending) =
      (map anyValue s (.object members ending)).map fun m => .object m.entries := by
  rw [anyValue, map_object]
  cases s.enter with
  | error fault => rfl
  | ok inner =>
    have hmembers : anyMembers inner [] members = _ := anyMembers_eq_mapM inner members ∅
    simp only [bind, Except.bind, hmembers]
    cases members.mapM (Reader.entry anyValue inner) with
    | error fault => rfl
    | ok entries => cases ending.check <;> rfl

theorem respects_anyValue (n : Nat) : Reader.Respects anyValue n .data := by
  intro t t' hw
  -- an object inside of the data is read as a map, an array as a list
  induction hw generalizing n with
  | reorder h =>
    intro s v hdepth hread
    rw [anyValue_object, map_eq_ok_iff] at hread ⊢
    obtain ⟨m, hm, rfl⟩ := hread
    exact ⟨m, follows_reorder h _ s m hdepth hm, rfl⟩
  | value _ _ _ ih =>
    intro s v hdepth hread
    rw [anyValue_object, map_eq_ok_iff] at hread ⊢
    obtain ⟨m, hm, rfl⟩ := hread
    exact ⟨m, (ih (n - 1)).value _ _ _ _ s m hdepth hm, rfl⟩
  | item _ _ _ ih =>
    intro s v hdepth hread
    rw [anyValue_array, map_eq_ok_iff] at hread ⊢
    obtain ⟨values, hvalues, rfl⟩ := hread
    exact ⟨values, (ih (n - 1)).item _ _ _ s values hdepth hvalues, rfl⟩

theorem data_eq_ok_iff {t : Tree} {d : Data} : data s t = .ok d ↔ anyValue s t = .ok d.value := by
  constructor
  · intro h
    cases hvalue : anyValue s t with
    | error fault =>
      unfold data at h
      split at h
      · rename_i heq
        cases heq.symm.trans hvalue
      · cases h
    | ok v =>
      rw [data_eq_ok hvalue] at h
      cases h
      rfl
  · intro h
    exact data_eq_ok h

end Reader

/-! ## Codecs -/

theorem respects_data (n : Nat) : Codec.data.Respects n .data := by
  intro t t' hw s d hdepth hread
  exact Reader.data_eq_ok_iff.2
    (Reader.respects_anyValue n t t' hw s d.value hdepth (Reader.data_eq_ok_iff.1 hread))

theorem Codec.Respects.list {c : Codec α} {n : Nat} {w : Rewriting} (h : c.Respects (n - 1) w) :
    (Codec.list c).Respects n (.list w) := by
  rintro _ _ ⟨before, after, hw⟩
  exact (h _ _ hw).item before after _

theorem Codec.Respects.map {c : Codec α} {n : Nat} {w : Rewriting} (h : c.Respects (n - 1) w) :
    (Codec.map c).Respects n (.map w) := by
  rintro _ _ (hre | ⟨before, after, hw⟩)
  · exact Reader.follows_reorder hre _
  · exact (h _ _ hw).value before after _ _

/-! ### Empty values -/

theorem Codec.read_list_nil (c : Codec α) {s : Scope} (h : 1 ≤ s.depth) :
    (Codec.list c).read s (Tree.ofValue (.array [])) = .ok [] := by
  obtain ⟨inner, hinner, -⟩ := Scope.enter_of_lt (s := s) h
  exact Reader.list_array_eq_ok_iff.2 ⟨inner, hinner, rfl, .nil⟩

theorem Codec.read_map_empty (c : Codec α) {s : Scope} (h : 1 ≤ s.depth) :
    (Codec.map c).read s (Tree.ofValue (.object [])) = .ok ∅ := by
  obtain ⟨inner, hinner, -⟩ := Scope.enter_of_lt (s := s) h
  exact Reader.map_object_eq_ok_iff.2 ⟨inner, hinner, rfl, [], .nil, rfl⟩

end SchemaRegistry.Json
