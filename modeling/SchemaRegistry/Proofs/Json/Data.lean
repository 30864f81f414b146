import SchemaRegistry.Proofs.Json.Codec

/-!
# Data that are read back

Data are handed on as they are, so nothing is known of them but their numbers: data of integers are plain
(`Value.Ordered.plain`), and therefore their text says all of them. Reading any tree that says data gives
the same data again (`faithful_data`). The members of an object are written into entries in key order one
after the other; whatever order they come in, the entries are the same in the end.

A codec makes round trips (`Codec.RoundTrips`) if a value is read back from what is written of it whenever
the data that it holds are data of integers and all of it fits into the depth that is read. This is so if
the codec is faithful and writes everything but data plainly (`Codec.Faithful.roundTrips`).
-/

namespace SchemaRegistry.Json

namespace Value

/-! ## Data of integers -/

mutual

/-- All numbers in the value are integers. -/
def Integral : Value → Prop
  | .null | .boolean _ | .text _ => True
  | .number n => ∃ k h, n = .integer k h
  | .array items => AllIntegral items
  | .object members => MembersIntegral members

/-- `Integral` for every item. -/
def AllIntegral : List Value → Prop
  | [] => True
  | v :: rest => Integral v ∧ AllIntegral rest

/-- `Integral` for every value of a member. -/
def MembersIntegral : List (String × Value) → Prop
  | [] => True
  | (_, v) :: rest => Integral v ∧ MembersIntegral rest

end

mutual

/-- In key order no key stands twice, so integers are all that is asked of the rest. -/
theorem Ordered.plain : ∀ {v : Value}, v.Ordered → v.Integral → v.Plain
  | .null, _, h | .boolean _, _, h | .number _, _, h | .text _, _, h => h
  | .array _, hordered, h => allPlain_of_allOrdered hordered h
  | .object _, ⟨hkeys, hmembers⟩, h => ⟨hkeys.nodup_keys, membersPlain_of_membersOrdered hmembers h⟩

theorem allPlain_of_allOrdered : ∀ {items : List Value},
    AllOrdered items → AllIntegral items → AllPlain items
  | [], _, _ => trivial
  | _ :: _, ⟨hv, hrest⟩, ⟨hi, his⟩ => ⟨hv.plain hi, allPlain_of_allOrdered hrest his⟩

theorem membersPlain_of_membersOrdered : ∀ {members : List (String × Value)},
    MembersOrdered members → MembersIntegral members → MembersPlain members
  | [], _, _ => trivial
  | _ :: _, ⟨hv, hrest⟩, ⟨hi, his⟩ => ⟨hv.plain hi, membersPlain_of_membersOrdered hrest his⟩

end

end Value

/-! ## Reading data -/

namespace Reader

/-- Members whose keys are spelled and whose values are read join the entries one after the other. -/
theorem anyMembers_of_forall₂ {s : Scope} {members : List (String × Value)}
    {ms : List (List Piece × Tree)}
    (h : List.Forall₂ (fun m e => spellString e.1 = .ok m.1 ∧ anyValue s e.2 = .ok m.2) members ms)
    (entries : List (String × Value)) :
    anyMembers s entries ms =
      .ok (members.foldl (fun entries m => insertEntry m.1 m.2 entries) entries) := by
  induction h generalizing entries with
  | nil => rfl
  | @cons m e members ms hfirst _ ih =>
    obtain ⟨hkey, hvalue⟩ := hfirst
    rw [anyMembers, hkey]
    simp only [bind, Except.bind, hvalue]
    exact ih _

theorem entries_foldl_insert (given : List (String × Value)) (m : SortedMap Value) :
    (given.foldl (fun m e => m.insert e.1 e.2) m).entries =
      given.foldl (fun entries e => insertEntry e.1 e.2 entries) m.entries := by
  induction given generalizing m with
  | nil => rfl
  | cons e given ih => exact ih (m.insert e.1 e.2)

/-- The entries that members in key order leave behind, in whatever order they join them. -/
theorem foldl_insertEntry_of_perm {members given : List (String × Value)} (hkeys : InKeyOrder members)
    (hperm : given.Perm members) :
    given.foldl (fun entries m => insertEntry m.1 m.2 entries) [] = members := by
  let m : SortedMap Value := ⟨members, hkeys⟩
  have hmap : SortedMap.ofList given = m := SortedMap.ofList_of_perm hperm
  exact (entries_foldl_insert given ∅).symm.trans (congrArg SortedMap.entries hmap)

mutual

/-- Whatever says a value in key order is read as this value. -/
theorem anyValue_of_saidBy : ∀ {v : Value} {s : Scope} {t : Tree}, v.Ordered → v.SaidBy t →
    v.depth ≤ s.depth → anyValue s t = .ok v
  | .null, _, _, _, hsaid, _ | .boolean _, _, _, _, hsaid, _ | .number _, _, _, _, hsaid, _ => by
    obtain rfl := hsaid
    rfl
  | .text _, _, _, _, ⟨pieces, ht, hspell⟩, _ => by
    subst ht
    rw [anyValue, hspell]
    rfl
  | .array items, s, _, hordered, ⟨ts, ht, hitems⟩, hdepth => by
    obtain ⟨inner, hinner, hle⟩ := Scope.enter_of_lt hdepth
    subst ht
    rw [anyValue, hinner]
    simp only [bind, Except.bind, anyItems_of_saidBy hordered hitems hle]
    rfl
  | .object members, s, t, ⟨hkeys, hordered⟩, hsaid, hdepth => by
    rw [← List.map_id members] at hsaid
    obtain ⟨ms, given, rfl, hperm, hgiven⟩ := Value.exists_perm_of_saidBy_object hsaid
    obtain ⟨inner, hinner, hle⟩ := Scope.enter_of_lt hdepth
    -- the tree gives the members in an order of its own, in which they join the entries
    have hmem : ∀ m ∈ given, m ∈ members := fun m hm => hperm.mem_iff.1 hm
    have hread : List.Forall₂ (fun m e => spellString e.1 = .ok m.1 ∧ anyValue inner e.2 = .ok m.2)
        given ms := by
      refine ((List.forall₂_and_left _ _).2 ⟨hmem, hgiven⟩).imp ?_
      rintro m e ⟨hm, hkey, hvalue⟩
      exact ⟨hkey, anyMember_of_saidBy hordered hm hvalue (Value.membersDepth_le_iff.1 hle m hm)⟩
    rw [anyValue, hinner]
    simp only [bind, Except.bind, anyMembers_of_forall₂ hread, foldl_insertEntry_of_perm hkeys hperm]
    rfl

theorem anyItems_of_saidBy : ∀ {items : List Value} {s : Scope} {ts : List Tree},
    Value.AllOrdered items → Value.ItemsSaidBy items ts → Value.itemsDepth items ≤ s.depth →
      anyItems s ts = .ok items
  | [], _, _, _, hsaid, _ => by
    obtain rfl := hsaid
    rfl
  | v :: rest, s, _, ⟨hv, hrest⟩, ⟨t, ts, hts, hsaid, hsaids⟩, hdepth => by
    subst hts
    rw [Value.itemsDepth, Nat.max_le] at hdepth
    rw [anyItems, anyValue_of_saidBy hv hsaid hdepth.1]
    simp only [bind, Except.bind, anyItems_of_saidBy hrest hsaids hdepth.2]
    rfl

theorem anyMember_of_saidBy : ∀ {members : List (String × Value)} {m : String × Value} {s : Scope}
    {t : Tree}, Value.MembersOrdered members → m ∈ members → m.2.SaidBy t → m.2.depth ≤ s.depth →
      anyValue s t = .ok m.2
  | (k, v) :: rest, m, s, t, ⟨hv, hrest⟩, hm, hsaid, hdepth => by
    rcases List.mem_cons.1 hm with rfl | hm
    · exact anyValue_of_saidBy hv hsaid hdepth
    · exact anyMember_of_saidBy hrest hm hsaid hdepth

end

end Reader

/-- Data are read back from every tree that says them. -/
theorem faithful_data : Codec.data.Faithful := by
  intro d s t hsaid hdepth
  change Reader.data s t = .ok d
  exact Reader.data_eq_ok (Reader.anyValue_of_saidBy d.ordered hsaid hdepth)

/-! ## Reading back -/

variable {α : Type}

/-- The value is read back from what is written of it. -/
structure Codec.ReadsBack (c : Codec α) (a : α) : Prop where
  compact : c.parse (c.write a).compact = .ok a
  pretty : c.parse (c.write a).pretty = .ok a
  /-- It is read back as well if the members of objects have another order. -/
  reordered : ∀ v : Value, v.Plain → (c.write a).SaidBy (Tree.written v) →
    c.parse v.compact = .ok a ∧ c.parse v.pretty = .ok a
  fromMemory : c.ofValue (c.write a) = .ok a

/-- What is plain and not too deep a faithful codec reads back. -/
theorem Codec.Faithful.readsBack {c : Codec α} (h : c.Faithful) {a : α} (hplain : (c.write a).Plain)
    (hdepth : (c.write a).depth ≤ 127) : c.ReadsBack a := by
  have hreordered : ∀ v : Value, v.Plain → (c.write a).SaidBy (Tree.written v) →
      c.parse v.compact = .ok a ∧ c.parse v.pretty = .ok a := by
    intro v hv hsaid
    exact ⟨h.parse_of_saidBy (Tree.ofText_compact hv) hsaid hdepth,
      h.parse_of_saidBy (Tree.ofText_pretty hv) hsaid hdepth⟩
  obtain ⟨hcompact, hpretty⟩ := hreordered _ hplain (Value.saidBy_written _)
  exact ⟨hcompact, hpretty, hreordered, h a .ofValue _ (Value.saidBy_ofValue _) hdepth⟩

/-- All numbers in the data are integers. -/
def Data.AllIntegral (ds : List Data) : Prop := ∀ d ∈ ds, d.value.Integral

/-- Every value is read back if all numbers in the data that it holds are integers and what is written of
it has at most 127 arrays and objects inside each other. -/
def Codec.RoundTrips (c : Codec α) (held : α → List Data) : Prop :=
  ∀ a, Data.AllIntegral (held a) → (c.write a).depth ≤ 127 → c.ReadsBack a

theorem Codec.Faithful.roundTrips {c : Codec α} {held : α → List Data} (h : c.Faithful)
    (hplain : ∀ a, Data.AllIntegral (held a) → (c.write a).Plain) : c.RoundTrips held :=
  fun a hheld hdepth => h.readsBack (hplain a hheld) hdepth

/-- The data that parts hold, taken together. -/
theorem Data.allIntegral_flatMap {xs : List α} {held : α → List Data} :
    AllIntegral (xs.flatMap held) ↔ ∀ x ∈ xs, AllIntegral (held x) := by
  simp only [AllIntegral, List.mem_flatMap]
  constructor
  · intro h x hx d hd
    exact h d ⟨x, hx, hd⟩
  · rintro h d ⟨x, hx, hd⟩
    exact h x hx d hd

theorem Data.allIntegral_append {ds es : List Data} :
    AllIntegral (ds ++ es) ↔ AllIntegral ds ∧ AllIntegral es :=
  List.forall_mem_append

theorem plain_data {d : Data} (h : d.value.Integral) : (Codec.data.write d).Plain := d.ordered.plain h

end SchemaRegistry.Json
