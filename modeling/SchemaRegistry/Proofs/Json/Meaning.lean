import Mathlib.Data.List.Forall2
import Mathlib.Data.List.Perm.Basic
import SchemaRegistry.Proofs.Json.Text

/-!
# What a tree says

A tree says a value if it has the same structure, its strings spell the same texts, and the members of
its objects are those of the value in any order (`Value.SaidBy`). This is all that a reader may rely on:
neither the escapes of a text nor the order of members mean anything.

The tree of a value says it as it stands (`saidBy_written`), and so does the tree of the value with
sorted keys (`saidBy_written_sortKeys`) and that of the value in memory (`saidBy_ofValue`).
-/

namespace SchemaRegistry.Json.Value

mutual

/-- The tree says the value. -/
def SaidBy : Value → Tree → Prop
  | .null, t => t = .null
  | .boolean b, t => t = .boolean b
  | .number n, t => t = .number (some n)
  | .text s, t => ∃ pieces, t = .string pieces ∧ spellString pieces = .ok s
  | .array items, t => ∃ ts, t = .array ts .closed ∧ ItemsSaidBy items ts
  | .object members, t =>
    ∃ ms inOrder, t = .object ms .closed ∧ inOrder.Perm ms ∧ MembersSaidBy members inOrder

/-- The trees say the items, one by one. -/
def ItemsSaidBy : List Value → List Tree → Prop
  | [], ts => ts = []
  | v :: rest, ts => ∃ t ts', ts = t :: ts' ∧ SaidBy v t ∧ ItemsSaidBy rest ts'

/-- The keys and trees say the members, one by one. -/
def MembersSaidBy : List (String × Value) → List (List Piece × Tree) → Prop
  | [], ms => ms = []
  | (k, v) :: rest, ms =>
    ∃ key t ms', ms = (key, t) :: ms' ∧ spellString key = .ok k ∧ SaidBy v t ∧ MembersSaidBy rest ms'

end

/-- A key and a tree say a member. -/
def MemberSaidBy (m : String × Value) (e : List Piece × Tree) : Prop :=
  spellString e.1 = .ok m.1 ∧ m.2.SaidBy e.2

theorem membersSaidBy_iff {members : List (String × Value)} {ms : List (List Piece × Tree)} :
    MembersSaidBy members ms ↔ List.Forall₂ MemberSaidBy members ms := by
  induction members generalizing ms with
  | nil => rw [MembersSaidBy, List.forall₂_nil_left_iff]
  | cons m members ih =>
    obtain ⟨k, v⟩ := m
    constructor
    · rintro ⟨key, t, ms, rfl, hkey, hv, hrest⟩
      exact .cons ⟨hkey, hv⟩ (ih.1 hrest)
    · rintro (_ | ⟨⟨hkey, hv⟩, hrest⟩)
      exact ⟨_, _, _, rfl, hkey, hv, ih.2 hrest⟩

/-- The members of an object can be taken in the order in which the tree has them. -/
theorem exists_perm_of_saidBy_object {β : Type} {xs : List β} {member : β → String × Value} {t : Tree}
    (h : (Value.object (xs.map member)).SaidBy t) :
    ∃ ms xs', t = .object ms .closed ∧ xs'.Perm xs ∧
      List.Forall₂ (fun x e => MemberSaidBy (member x) e) xs' ms := by
  obtain ⟨ms, inOrder, ht, hperm, hsaid⟩ := h
  rw [membersSaidBy_iff, List.forall₂_map_left_iff] at hsaid
  -- the members are said in their own order by a rearranged tree, so rearranged by the tree itself
  obtain ⟨xs', hsaid', hperm'⟩ := List.perm_comp_forall₂ hperm.symm (List.Forall₂.flip hsaid)
  exact ⟨ms, xs', ht, hperm', List.Forall₂.flip hsaid'⟩

/-! ## Written values -/

mutual

/-- The tree of a value says it. -/
theorem saidBy_written : ∀ v : Value, v.SaidBy (Tree.written v)
  | .null | .boolean _ | .number _ => rfl
  | .text s => ⟨_, rfl, spellString_writtenPieces s⟩
  | .array items => ⟨_, rfl, itemsSaidBy_written items⟩
  | .object members => ⟨_, _, rfl, .refl _, membersSaidBy_written members⟩

theorem itemsSaidBy_written : ∀ items : List Value, ItemsSaidBy items (Tree.writtenItems items)
  | [] => rfl
  | v :: items => ⟨_, _, rfl, saidBy_written v, itemsSaidBy_written items⟩

theorem membersSaidBy_written : ∀ members : List (String × Value),
    MembersSaidBy members (Tree.writtenMembers members)
  | [] => rfl
  | (k, v) :: members =>
    ⟨_, _, _, rfl, spellString_writtenPieces k, saidBy_written v, membersSaidBy_written members⟩

end

mutual

/-- A value that is in memory is said by its tree. -/
theorem saidBy_ofValue : ∀ v : Value, v.SaidBy (Tree.ofValue v)
  | .null | .boolean _ | .number _ => rfl
  | .text s => ⟨_, rfl, spellString_plainPieces s⟩
  | .array items => ⟨_, rfl, itemsSaidBy_ofItems items⟩
  | .object members => ⟨_, _, rfl, .refl _, membersSaidBy_ofMembers members⟩

theorem itemsSaidBy_ofItems : ∀ items : List Value, ItemsSaidBy items (Tree.ofItems items)
  | [] => rfl
  | v :: items => ⟨_, _, rfl, saidBy_ofValue v, itemsSaidBy_ofItems items⟩

theorem membersSaidBy_ofMembers : ∀ members : List (String × Value),
    MembersSaidBy members (Tree.ofMembers members)
  | [] => rfl
  | (k, v) :: members =>
    ⟨_, _, _, rfl, spellString_plainPieces k, saidBy_ofValue v, membersSaidBy_ofMembers members⟩

end

mutual

/-- The tree of the value with sorted keys says it as well. -/
theorem saidBy_written_sortKeys : ∀ {v : Value}, v.Plain → v.SaidBy (Tree.written v.sortKeys)
  | .null, _ | .boolean _, _ | .number _, _ => rfl
  | .text s, _ => ⟨_, rfl, spellString_writtenPieces s⟩
  | .array _, h => ⟨_, rfl, itemsSaidBy_written_sortItems h⟩
  | .object members, ⟨hkeys, hmembers⟩ => by
    refine ⟨_, Tree.writtenMembers (members.map fun m => (m.1, m.2.sortKeys)), rfl, ?_,
      membersSaidBy_written_sorted hmembers⟩
    rw [Tree.writtenMembers_eq_map, Tree.writtenMembers_eq_map]
    exact (sortMembers_nil_perm hkeys).symm.map _

theorem itemsSaidBy_written_sortItems : ∀ {items : List Value}, AllPlain items →
    ItemsSaidBy items (Tree.writtenItems (sortItems items))
  | [], _ => rfl
  | _ :: _, ⟨hv, hitems⟩ =>
    ⟨_, _, rfl, saidBy_written_sortKeys hv, itemsSaidBy_written_sortItems hitems⟩

theorem membersSaidBy_written_sorted : ∀ {members : List (String × Value)}, MembersPlain members →
    MembersSaidBy members (Tree.writtenMembers (members.map fun m => (m.1, m.2.sortKeys)))
  | [], _ => rfl
  | (k, _) :: _, ⟨hv, hmembers⟩ =>
    ⟨_, _, _, rfl, spellString_writtenPieces k, saidBy_written_sortKeys hv,
      membersSaidBy_written_sorted hmembers⟩

end

end SchemaRegistry.Json.Value
