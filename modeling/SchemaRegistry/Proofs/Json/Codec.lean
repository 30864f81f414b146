import SchemaRegistry.Proofs.Json.Meaning

/-!
# Codecs that read back what they write

A codec is faithful if it reads a value back from any tree that says what was written
(`Codec.Faithful`). The members of an object come in any order there, so this covers the text of a value
as well as its text with sorted keys. Lists, sets and maps are faithful if their parts are.

What is written is also kept within bounds (`Codec.Within`): plain, and nested to a known depth. A
faithful codec within such bounds reads back its own texts (`Codec.Faithful.parse_sortKeys`).
-/

namespace SchemaRegistry.Json

variable {α β : Type}

/-- Reading any tree that says what was written gives back what was written, if the depth suffices. -/
def Codec.Faithful (c : Codec α) : Prop :=
  ∀ (a : α) (s : Scope) (t : Tree), (c.write a).SaidBy t → (c.write a).depth ≤ s.depth →
    c.read s t = .ok a

/-- What is written is plain and at most `n` deep. -/
def Codec.Within (c : Codec α) (n : Nat) : Prop :=
  ∀ a : α, (c.write a).Plain ∧ (c.write a).depth ≤ n

theorem Codec.Within.mono {c : Codec α} {n k : Nat} (h : c.Within n) (hle : n ≤ k) : c.Within k :=
  fun a => ⟨(h a).1, Nat.le_trans (h a).2 hle⟩

section Parse

variable {c : Codec α} {a : α} {v : Value}

/-- A text is read as the value that its tree says. -/
theorem Codec.Faithful.parse_of_saidBy {text : String} (h : c.Faithful)
    (htext : Tree.ofText text = (Tree.written v, false)) (hsaid : (c.write a).SaidBy (Tree.written v))
    (hdepth : (c.write a).depth ≤ 127) : c.parse text = .ok a := by
  have hread := h a .ofText _ hsaid hdepth
  rw [Codec.parse, htext]
  simp only [hread, bind, Except.bind]
  rfl

/-- From the compact text with sorted keys a faithful codec reads what was written. -/
theorem Codec.Faithful.parse_sortKeys {n : Nat} (h : c.Faithful) (hwithin : c.Within n)
    (hn : n ≤ 127) (a : α) : c.parse (c.write a).sortKeys.compact = .ok a := by
  obtain ⟨hplain, hdepth⟩ := hwithin a
  exact h.parse_of_saidBy (Tree.ofText_compact (Value.plain_sortKeys hplain))
    (Value.saidBy_written_sortKeys hplain) (Nat.le_trans hdepth hn)

end Parse

/-! ## Scalars -/

theorem faithful_string : Codec.string.Faithful := by
  rintro s _ _ ⟨pieces, rfl, hspell⟩ -
  exact hspell

theorem within_string : Codec.string.Within 0 := fun _ => ⟨trivial, Nat.le_refl 0⟩

theorem faithful_boolean : Codec.boolean.Faithful := by
  rintro b s _ rfl -
  rfl

theorem within_boolean : Codec.boolean.Within 0 := fun _ => ⟨trivial, Nat.le_refl 0⟩

theorem write_natural32 (n : UInt32) :
    ∃ h, Codec.natural32.write n = .number (.integer n.toNat h) := by
  have hlt : n.toNat < 0x10000000000000000 := by
    have := n.toNat_lt
    omega
  refine ⟨Number.inRange_natCast hlt, ?_⟩
  simp only [Codec.natural32, Value.ofNat, dif_pos hlt]

theorem faithful_natural32 : Codec.natural32.Faithful := by
  intro n s t hsaid _
  obtain ⟨hrange, hwrite⟩ := write_natural32 n
  rw [hwrite] at hsaid
  obtain rfl := hsaid
  have hlt : 0 ≤ (n.toNat : Int) ∧ (n.toNat : Int) < 0x100000000 := by
    have := n.toNat_lt
    omega
  simp only [Codec.natural32, Reader.natural32, if_pos hlt, Int.toNat_natCast, UInt32.ofNat_toNat]

theorem within_natural32 : Codec.natural32.Within 0 := by
  intro n
  obtain ⟨hrange, hwrite⟩ := write_natural32 n
  rw [hwrite]
  exact ⟨⟨_, _, rfl⟩, Nat.le_refl 0⟩

/-- A variant is read back if its name leads to it. -/
theorem faithful_variant {name : α → String} {all : List α}
    (h : ∀ a, all.find? (fun b => name b == name a) = some a) : (Codec.variant name all).Faithful := by
  rintro a s _ ⟨pieces, rfl, hspell⟩ -
  change Codec.readVariant name all s (.string pieces) = .ok a
  rw [Codec.readVariant, hspell]
  simp only [bind, Except.bind, Codec.findVariant, h a]

theorem within_variant (name : α → String) (all : List α) : (Codec.variant name all).Within 0 :=
  fun _ => ⟨trivial, Nat.le_refl 0⟩

/-! ## Values that may be missing -/

/-- No value is written as `null`. -/
def Codec.NeverNull (c : Codec α) : Prop := ∀ a, ¬ (c.write a).SaidBy .null

theorem neverNull_string : Codec.string.NeverNull := by
  rintro s ⟨pieces, hnull, -⟩
  cases hnull

theorem neverNull_boolean : Codec.boolean.NeverNull := by
  intro b hnull
  cases hnull

/-- What is not written as `null` is kept apart from what is missing. -/
theorem Codec.Faithful.option {c : Codec α} (h : c.Faithful) (hnull : c.NeverNull) :
    (Codec.option c).Faithful := by
  intro o s t hsaid hdepth
  change Reader.option c.read s t = .ok o
  cases o with
  | none =>
    obtain rfl : t = .null := hsaid
    rfl
  | some a =>
    have hread : c.read s t = .ok a := h a s t hsaid hdepth
    unfold Reader.option
    split
    · exact absurd hsaid (hnull a)
    · rw [hread]
      rfl

theorem Codec.Within.option {c : Codec α} {n : Nat} (h : c.Within n) : (Codec.option c).Within n
  | none => ⟨trivial, Nat.zero_le n⟩
  | some a => h a

/-! ## Lists and sets -/

theorem mapM_read_of_saidBy {c : Codec α} (h : c.Faithful) {xs : List α} {ts : List Tree} {s : Scope}
    (hitems : Value.ItemsSaidBy (xs.map c.write) ts)
    (hdepth : Value.itemsDepth (xs.map c.write) ≤ s.depth) : ts.mapM (c.read s) = .ok xs := by
  induction xs generalizing ts with
  | nil =>
    obtain rfl := hitems
    rfl
  | cons x xs ih =>
    obtain ⟨t, ts, rfl, hfirst, hrest⟩ := hitems
    rw [List.map_cons, Value.itemsDepth, Nat.max_le] at hdepth
    rw [List.mapM_cons, h x s t hfirst hdepth.1, ih hrest hdepth.2]
    rfl

theorem Codec.Faithful.list {c : Codec α} (h : c.Faithful) : (Codec.list c).Faithful := by
  rintro xs s _ ⟨ts, rfl, hitems⟩ hdepth
  obtain ⟨inner, hinner, hle⟩ := Scope.enter_of_lt hdepth
  have hread := mapM_read_of_saidBy h hitems hle
  change Reader.list c.read s (.array ts .closed) = .ok xs
  rw [Reader.list, hinner]
  simp only [bind, Except.bind, hread]
  rfl

theorem Codec.plain_list {c : Codec α} {xs : List α} (h : ∀ a ∈ xs, (c.write a).Plain) :
    ((Codec.list c).write xs).Plain := by
  refine Value.allPlain_iff.2 ?_
  intro v hv
  obtain ⟨a, ha, rfl⟩ := List.mem_map.1 hv
  exact h a ha

theorem Codec.Within.list {c : Codec α} {n : Nat} (h : c.Within n) : (Codec.list c).Within (n + 1) := by
  intro xs
  refine ⟨Codec.plain_list fun a _ => (h a).1, Nat.succ_le_succ (Value.itemsDepth_le_iff.2 ?_)⟩
  intro v hv
  obtain ⟨a, -, rfl⟩ := List.mem_map.1 hv
  exact (h a).2

/-- A set is read back, since its elements are all it is. -/
theorem faithful_set : Codec.set.Faithful := by
  intro s scope t hsaid hdepth
  have hread : Reader.list Reader.string scope t = .ok s.toList :=
    faithful_string.list s.toList scope t hsaid hdepth
  change (Reader.list Reader.string scope t).map SortedSet.ofList = .ok s
  rw [hread]
  exact congrArg Except.ok (SortedSet.ofList_toList s)

theorem within_set : Codec.set.Within 1 := fun s => within_string.list s.toList

/-! ## Maps -/

theorem mapM_entries {c : Codec α} (h : c.Faithful) {entries : List (String × α)}
    {ms : List (List Piece × Tree)} {s : Scope}
    (hsaid : List.Forall₂ (fun e m => Value.MemberSaidBy (e.1, c.write e.2) m) entries ms)
    (hdepth : ∀ e ∈ entries, (c.write e.2).depth ≤ s.depth) :
    (ms.mapM fun (key, value) => do
      let key ← spellString key
      return (key, ← c.read s value)) = .ok entries := by
  induction hsaid with
  | nil => rfl
  | @cons e m entries ms hfirst _ ih =>
    obtain ⟨hkey, hvalue⟩ := hfirst
    have hread := h e.2 s m.2 hvalue (hdepth e List.mem_cons_self)
    rw [List.mapM_cons, ih fun e he => hdepth e (List.mem_cons_of_mem _ he)]
    simp only [hkey, hread, bind, Except.bind]
    rfl

theorem Codec.Faithful.map {c : Codec α} (h : c.Faithful) : (Codec.map c).Faithful := by
  intro m s t hsaid hdepth
  obtain ⟨ms, entries, rfl, hperm, hentries⟩ := Value.exists_perm_of_saidBy_object hsaid
  obtain ⟨inner, hinner, hle⟩ := Scope.enter_of_lt hdepth
  have hread := mapM_entries (s := inner) h hentries fun e he =>
    Value.membersDepth_le_iff.1 hle (e.1, c.write e.2) (List.mem_map_of_mem (hperm.mem_iff.1 he))
  change Reader.map c.read s (.object ms .closed) = .ok m
  rw [Reader.map, hinner]
  simp only [bind, Except.bind] at hread ⊢
  simp only [hread]
  -- the entries of the map have come in some order, which leaves no trace in it
  exact congrArg Except.ok (SortedMap.ofList_of_perm hperm)

theorem Codec.plain_map {c : Codec α} {m : SortedMap α} (h : ∀ a ∈ m.values, (c.write a).Plain) :
    ((Codec.map c).write m).Plain := by
  refine ⟨(m.map c.write).inKeyOrder.nodup_keys, Value.membersPlain_iff.2 ?_⟩
  intro e he
  obtain ⟨e', he', rfl⟩ := List.mem_map.1 he
  exact h e'.2 (List.mem_map_of_mem he')

theorem Codec.Within.map {c : Codec α} {n : Nat} (h : c.Within n) : (Codec.map c).Within (n + 1) := by
  intro m
  refine ⟨Codec.plain_map fun a _ => (h a).1, Nat.succ_le_succ (Value.membersDepth_le_iff.2 ?_)⟩
  intro e he
  obtain ⟨e', -, rfl⟩ := List.mem_map.1 he
  exact (h e'.2).2

end SchemaRegistry.Json
