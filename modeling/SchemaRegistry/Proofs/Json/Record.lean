import SchemaRegistry.Json.Record
import SchemaRegistry.Proofs.Json.Codec

/-!
# Records that are read back

A record is read member by member into a draft. What the draft holds after some members is given by
their keys alone (`Members.draft`): each further member adds its key (`accept_draft`), whichever comes
next, and a draft with the keys of all members that were written is complete (`complete_draft`). So a
record is faithful if its members are, provided that the members left out in writing have a value of
their own (`Codec.Faithful.record`).
-/

namespace SchemaRegistry.Json

variable {αs : List Type}

namespace Members

/-- Every member is faithful, and one that is left out is read as the value it had. -/
def Faithful : {αs : List Type} → Members αs → Prop
  | _, .nil => True
  | _, .cons first others =>
    first.codec.Faithful ∧ (∀ a, first.omits a = true → first.absent = some a) ∧ others.Faithful

theorem Faithful.nil : Members.nil.Faithful := trivial

section Faithful

variable {α : Type} {key : String} {codec : Codec α} {absent : α} {omits : α → Bool}
  {others : Members αs}

theorem Faithful.required (h : codec.Faithful) (hothers : others.Faithful) :
    (Members.cons (.required key codec) others).Faithful :=
  ⟨h, fun _ homits => Bool.noConfusion homits, hothers⟩

theorem Faithful.optional (h : codec.Faithful) (hothers : others.Faithful) :
    (Members.cons (.optional key codec absent) others).Faithful :=
  ⟨h, fun _ homits => Bool.noConfusion homits, hothers⟩

/-- A member may be left out if it is then read as what it was. -/
theorem Faithful.omittable (h : codec.Faithful) (homits : ∀ a, omits a = true ↔ a = absent)
    (hothers : others.Faithful) :
    (Members.cons (.omittable key codec absent omits) others).Faithful :=
  ⟨h, fun a ha => congrArg some ((homits a).1 ha).symm, hothers⟩

end Faithful

/-- Every member is written within the bounds. -/
def Within (n : Nat) : {αs : List Type} → Members αs → Prop
  | _, .nil => True
  | _, .cons first others => first.codec.Within n ∧ others.Within n

/-- The draft of a row that has the values under the given keys. -/
def draft (read : List String) : {αs : List Type} → Members αs → Row αs → Draft αs
  | _, .nil, _ => ()
  | _, .cons first others, (a, row) =>
    (if read.contains first.key then some a else none, others.draft read row)

theorem draft_nil (ms : Members αs) (row : Row αs) : ms.draft [] row = ms.blank := by
  induction ms with
  | nil => rfl
  | cons first others ih =>
    obtain ⟨a, row⟩ := row
    rw [draft, ih, blank]
    rfl

/-! ## Keys -/

/-- What is written is the first member, unless it is left out, or one of the others. -/
theorem mem_write_cons {α : Type} {first : Member α} {others : Members αs} {a : α} {row : Row αs}
    {m : String × Value} (h : m ∈ (Members.cons first others).write (a, row)) :
    m = (first.key, first.codec.write a) ∨ m ∈ others.write row := by
  rw [write] at h
  split at h
  · exact .inr h
  · exact List.mem_cons.1 h

theorem mem_keys_of_mem_write {ms : Members αs} {row : Row αs} {m : String × Value}
    (h : m ∈ ms.write row) : m.1 ∈ ms.keys := by
  induction ms with
  | nil => cases h
  | cons first others ih =>
    obtain ⟨a, row⟩ := row
    rcases mem_write_cons h with rfl | h
    · exact List.mem_cons_self
    · exact List.mem_cons_of_mem _ (ih h)

/-- A key that is not among the members makes no difference. -/
theorem draft_cons_of_not_mem {ms : Members αs} {key : String} (h : key ∉ ms.keys)
    (read : List String) (row : Row αs) : ms.draft (key :: read) row = ms.draft read row := by
  induction ms with
  | nil => rfl
  | cons first others ih =>
    obtain ⟨a, row⟩ := row
    rw [keys, List.mem_cons, not_or] at h
    have hother : (first.key == key) = false := beq_false_of_ne (Ne.symm h.1)
    rw [draft, draft, ih h.2, List.contains_cons, hother, Bool.false_or]

theorem sublist_keys_write (ms : Members αs) (row : Row αs) :
    ((ms.write row).map (·.1)).Sublist ms.keys := by
  induction ms with
  | nil => exact .slnil
  | cons first others ih =>
    obtain ⟨a, row⟩ := row
    rw [write, keys]
    split
    · exact (ih row).cons _
    · exact (ih row).cons_cons _

/-! ## Reading -/

section Accept

variable {α : Type} {first : Member α} {others : Members αs} {s : Scope} {key : String} {t : Tree}

theorem accept_first {a : α} (hkey : first.key = key) (h : first.codec.read s t = .ok a)
    (d : Draft αs) : (Members.cons first others).accept s key t (none, d) = .ok (some a, d) := by
  simp only [accept, hkey, h, bind, Except.bind]
  rfl

theorem accept_others {d d' : Draft αs} (hkey : first.key ≠ key) (h : others.accept s key t d = .ok d')
    (a : Option α) : (Members.cons first others).accept s key t (a, d) = .ok (a, d') := by
  simp only [accept, hkey, h, bind, Except.bind]
  rfl

end Accept

/-- A member that was written and is read for the first time joins the draft. -/
theorem accept_draft {ms : Members αs} {row : Row αs} {s : Scope} {read : List String}
    {m : String × Value} {t : Tree} (hkeys : ms.keys.Nodup) (hfaithful : ms.Faithful)
    (hm : m ∈ ms.write row) (hnew : m.1 ∉ read) (hsaid : m.2.SaidBy t) (hdepth : m.2.depth ≤ s.depth) :
    ms.accept s m.1 t (ms.draft read row) = .ok (ms.draft (m.1 :: read) row) := by
  induction ms with
  | nil => cases hm
  | cons first others ih =>
    obtain ⟨a, row⟩ := row
    obtain ⟨hfirst, -, hothers⟩ := hfaithful
    obtain ⟨hfresh, hkeys⟩ := List.nodup_cons.1 hkeys
    rw [draft, draft, List.contains_cons]
    by_cases hkey : first.key = m.1
    · -- it is this member and none of the others
      rw [hkey] at hfresh
      have hnot : m ∉ others.write row := fun hmem => hfresh (mem_keys_of_mem_write hmem)
      have hwritten := (mem_write_cons hm).resolve_right hnot
      rw [hwritten] at hsaid hdepth
      have hread := hfirst a s t hsaid hdepth
      have hmem : read.contains m.1 = false := by simpa using hnew
      rw [draft_cons_of_not_mem hfresh, hkey, hmem, BEq.rfl]
      exact accept_first hkey hread _
    · have hm : m ∈ others.write row := by
        refine (mem_write_cons hm).resolve_left ?_
        rintro rfl
        exact hkey rfl
      have hother : (first.key == m.1) = false := beq_false_of_ne hkey
      rw [hother, Bool.false_or]
      exact accept_others hkey (ih hkeys hothers hm) _

/-- Members that were written are read one after the other, in any order. -/
theorem acceptAll_draft {ms : Members αs} {row : Row αs} {s : Scope} (hkeys : ms.keys.Nodup)
    (hfaithful : ms.Faithful) {given : List (String × Value)} {es : List (List Piece × Tree)}
    (hsaid : List.Forall₂ Value.MemberSaidBy given es) (hwritten : ∀ m ∈ given, m ∈ ms.write row)
    (hdepth : ∀ m ∈ given, m.2.depth ≤ s.depth) {read : List String}
    (hnodup : ((given.map (·.1)).reverse ++ read).Nodup) :
    ms.acceptAll s (ms.draft read row) es =
      .ok (ms.draft ((given.map (·.1)).reverse ++ read) row) := by
  induction hsaid generalizing read with
  | nil => rfl
  | @cons m e given es hfirst _ ih =>
    obtain ⟨key, t⟩ := e
    obtain ⟨hspell, hvalue⟩ := hfirst
    have hassoc : (((m :: given).map (·.1)).reverse ++ read) =
        (given.map (·.1)).reverse ++ m.1 :: read := by simp
    rw [hassoc] at hnodup ⊢
    -- it was not read before, or its key would be there twice in the end
    have hnew : m.1 ∉ read := by
      have hsuffix := (List.nodup_append.1 hnodup).2.1
      exact (List.nodup_cons.1 hsuffix).1
    have haccept := accept_draft hkeys hfaithful (hwritten m List.mem_cons_self) hnew hvalue
      (hdepth m List.mem_cons_self)
    have hothers := ih (fun m' hm' => hwritten m' (List.mem_cons_of_mem _ hm'))
      (fun m' hm' => hdepth m' (List.mem_cons_of_mem _ hm')) hnodup
    rw [acceptAll]
    simp only [hspell, haccept, bind, Except.bind]
    exact hothers

/-- With all keys that were written the row is complete. -/
theorem complete_draft {ms : Members αs} {row : Row αs} {read : List String}
    (hfaithful : ms.Faithful) (hread : ∀ m ∈ ms.write row, m.1 ∈ read) :
    ms.complete (ms.draft read row) = .ok row := by
  induction ms with
  | nil => rfl
  | cons first others ih =>
    obtain ⟨a, row⟩ := row
    obtain ⟨-, homits, hothers⟩ := hfaithful
    rw [write] at hread
    have hfirst : ((if read.contains first.key then some a else none) <|> first.absent) = some a := by
      cases hcase : first.omits a with
      | true =>
        -- whether it was read or not, it has the value it is left out with
        rw [homits a hcase]
        split <;> rfl
      | false =>
        rw [hcase] at hread
        have hmem : read.contains first.key = true := by simpa using hread _ List.mem_cons_self
        rw [hmem]
        rfl
    have hrest : ∀ m ∈ others.write row, m.1 ∈ read := by
      intro m hm
      split at hread
      · exact hread m hm
      · exact hread m (List.mem_cons_of_mem _ hm)
    simp only [draft, complete, hfirst, ih hothers hrest, bind, Except.bind]
    rfl

/-- An object that says a written row is read as that row. -/
theorem readObject_of_saidBy {ms : Members αs} {row : Row αs} (hkeys : ms.keys.Nodup)
    (hfaithful : ms.Faithful) {s : Scope} {t : Tree} (hsaid : (Value.object (ms.write row)).SaidBy t)
    (hdepth : (Value.object (ms.write row)).depth ≤ s.depth) :
    ∃ es, t = .object es .closed ∧ ms.readObject s es .closed = .ok row := by
  have hself : ms.write row = (ms.write row).map id := (List.map_id _).symm
  rw [hself] at hsaid
  obtain ⟨es, (given : List (String × Value)), rfl, hperm, hgiven⟩ :=
    Value.exists_perm_of_saidBy_object hsaid
  obtain ⟨inner, hinner, hle⟩ := Scope.enter_of_lt hdepth
  have hwritten : ((ms.write row).map (·.1)).Nodup := hkeys.sublist (sublist_keys_write ms row)
  let found : List String := given.map fun m => m.1
  have hnodup : (found.reverse ++ []).Nodup := by
    have hfound : found.Nodup := (hperm.map (·.1)).nodup_iff.2 hwritten
    rw [List.append_nil]
    exact (List.reverse_perm found).nodup_iff.2 hfound
  have haccept : ms.acceptAll inner (ms.draft [] row) es =
      .ok (ms.draft (found.reverse ++ []) row) := by
    refine acceptAll_draft hkeys hfaithful hgiven ?_ ?_ hnodup
    · exact fun m hm => hperm.mem_iff.1 hm
    · exact fun m hm => Value.membersDepth_le_iff.1 hle m (hperm.mem_iff.1 hm)
  have hcomplete : ms.complete (ms.draft (found.reverse ++ []) row) = .ok row := by
    refine complete_draft hfaithful ?_
    intro m hm
    rw [List.append_nil, List.mem_reverse]
    exact List.mem_map_of_mem (hperm.mem_iff.2 hm)
  refine ⟨es, rfl, ?_⟩
  rw [draft_nil] at haccept
  simp only [readObject, hinner, haccept, checkEnd, ObjectEnd.check, hcomplete, bind, Except.bind]

/-! ## Writing within bounds -/

/-- Every value of the row is written plainly. -/
def WritesPlain : {αs : List Type} → Members αs → Row αs → Prop
  | _, .nil, _ => True
  | _, .cons first others, (a, row) => (first.codec.write a).Plain ∧ others.WritesPlain row

theorem plain_write {ms : Members αs} {row : Row αs} (h : ms.WritesPlain row) :
    ∀ m ∈ ms.write row, m.2.Plain := by
  induction ms with
  | nil =>
    intro m hm
    cases hm
  | cons first others ih =>
    obtain ⟨a, row⟩ := row
    intro m hm
    rcases mem_write_cons hm with rfl | hm
    · exact h.1
    · exact ih h.2 m hm

theorem within_write {n : Nat} {ms : Members αs} (h : ms.Within n) (row : Row αs) :
    ∀ m ∈ ms.write row, m.2.Plain ∧ m.2.depth ≤ n := by
  induction ms with
  | nil =>
    intro m hm
    cases hm
  | cons first others ih =>
    obtain ⟨a, row⟩ := row
    intro m hm
    rcases mem_write_cons hm with rfl | hm
    · exact h.1 a
    · exact ih h.2 row m hm

end Members

/-! ## Records -/

variable {α : Type} {name : String} {ms : Members αs} {make : Row αs → α} {row : α → Row αs}

theorem Codec.Faithful.record (hkeys : ms.keys.Nodup) (h : ms.Faithful)
    (hmake : ∀ a, make (row a) = a) : (Codec.record name ms make row).Faithful := by
  intro a s t hsaid hdepth
  obtain ⟨es, rfl, hread⟩ := Members.readObject_of_saidBy hkeys h hsaid hdepth
  change (ms.readObject s es .closed).map make = .ok a
  rw [hread]
  exact congrArg Except.ok (hmake a)

theorem Codec.plain_record (hkeys : ms.keys.Nodup) {a : α} (h : ms.WritesPlain (row a)) :
    ((Codec.record name ms make row).write a).Plain :=
  ⟨hkeys.sublist (Members.sublist_keys_write ms (row a)),
    Value.membersPlain_iff.2 (Members.plain_write h)⟩

theorem Codec.Within.record {n : Nat} (hkeys : ms.keys.Nodup) (h : ms.Within n) :
    (Codec.record name ms make row).Within (n + 1) := by
  intro a
  have hmembers := Members.within_write h (row a)
  refine ⟨⟨hkeys.sublist (Members.sublist_keys_write ms (row a)), Value.membersPlain_iff.2 ?_⟩,
    Nat.succ_le_succ (Value.membersDepth_le_iff.2 ?_)⟩
  · exact fun m hm => (hmembers m hm).1
  · exact fun m hm => (hmembers m hm).2

end SchemaRegistry.Json
