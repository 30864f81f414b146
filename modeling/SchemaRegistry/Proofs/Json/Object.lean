import SchemaRegistry.Proofs.Json.Given
import SchemaRegistry.Proofs.Json.Record

/-!
# When an object is read

An object is read as a row exactly if it is closed, each of its keys is spelled, what stands under a key
that is not declared can be passed over, and every value of the row is the one that its member takes
(`Members.readObject_eq_ok_iff`). Nothing else about the object counts, so two objects that agree in this
are read as the same row.

That the row is taken is kept as an invariant of the draft (`Members.Drafted`). For the other direction
the row is known beforehand: no member can then be given twice, and the draft goes on to the end
(`Members.Drafted.exists_acceptAll`).
-/

namespace SchemaRegistry.Json

variable {αs : List Type}

/-! ## What a row takes -/

section Takes

variable {α : Type} {s : Scope} {first : Member α}

theorem Member.takes_nil_iff {a : α} : first.Takes s [] a ↔ first.absent = some a := by
  constructor
  · rintro ⟨h⟩
    exact h
  · exact .absent

theorem Member.takes_singleton_iff {t : Tree} {a : α} :
    first.Takes s [t] a ↔ first.codec.read s t = .ok a := by
  constructor
  · intro h
    cases h with
    | given h => exact h
  · exact .given

/-- No member takes one of several values. -/
theorem Member.Takes.length_le_one {values : List Tree} {a : α} (h : first.Takes s values a) :
    values.length ≤ 1 := by
  cases h with
  | absent => exact Nat.zero_le 1
  | given => exact Nat.le_refl 1

/-- A value that is given is the only one. -/
theorem Member.Takes.eq_singleton {before after : List Tree} {t : Tree} {a : α}
    (h : first.Takes s (before ++ t :: after) a) :
    before = [] ∧ after = [] ∧ first.codec.read s t = .ok a := by
  generalize hvalues : before ++ t :: after = values at h
  cases h with
  | absent => simp at hvalues
  | given h =>
    obtain ⟨rfl, hrest⟩ | ⟨-, hrest⟩ := List.append_eq_singleton_iff.1 hvalues
    · obtain ⟨rfl, rfl⟩ := List.cons.inj hrest
      exact ⟨rfl, rfl, h⟩
    · cases hrest

end Takes

namespace Members

/-- The key of the member is spelled, and if it is not among `keys`, its value can be passed over. -/
def Passable (keys : List String) (member : List Piece × Tree) : Prop :=
  ∃ key, spellString member.1 = .ok key ∧ (key ∉ keys → member.2.skip = .ok ())

theorem checkEnd_eq_ok_iff {ms : Members αs} {d : Draft αs} {ending : ObjectEnd} :
    ms.checkEnd d ending = .ok () ↔ ending = .closed := by
  cases ending with
  | noColon key found =>
    constructor
    · intro h
      rw [checkEnd, bind_eq_ok_iff] at h
      obtain ⟨key, -, hthrown⟩ := h
      cases hthrown
    · intro h
      cases h
  | _ => simp only [checkEnd, ObjectEnd.check_eq_ok_iff]

section Reading

variable {s : Scope} {ms : Members αs} {seen : List (List Piece × Tree)} {d d' : Draft αs}
  {row : Row αs} {pieces : List Piece} {key : String} {t : Tree}

/-- What no member takes is passed over. -/
theorem skip_of_accept (hread : ms.accept s key t d = .ok d') (hkey : key ∉ ms.keys) :
    t.skip = .ok () := by
  induction ms with
  | nil =>
    rw [accept, bind_eq_ok_iff] at hread
    obtain ⟨_, hskip, -⟩ := hread
    exact hskip
  | cons first others ih =>
    obtain ⟨a?, d⟩ := d
    obtain ⟨a?', d'⟩ := d'
    rw [keys, List.mem_cons, not_or] at hkey
    rcases accept_cons_cases hread with ⟨hfirst, -⟩ | ⟨-, -, hrest⟩
    · exact absurd hfirst.symm hkey.1
    · exact ih hrest hkey.2

theorem passable_of_acceptAll {members : List (List Piece × Tree)}
    (hread : ms.acceptAll s d members = .ok d') : ∀ e ∈ members, Passable ms.keys e := by
  induction members generalizing d with
  | nil =>
    intro e he
    cases he
  | cons e rest ih =>
    obtain ⟨pieces, t⟩ := e
    rw [acceptAll, bind_eq_ok_iff] at hread
    obtain ⟨key, hspell, hread⟩ := hread
    obtain ⟨next, hnext, hrest⟩ := bind_eq_ok_iff.1 hread
    exact List.forall_mem_cons.2 ⟨⟨key, hspell, skip_of_accept hnext⟩, ih hrest⟩

/-- If a row is taken in the end, the next member of the object is read. -/
theorem Drafted.exists_accept (h : ms.Drafted s seen d) (hspell : spellString pieces = .ok key)
    (hskip : key ∉ ms.keys → t.skip = .ok ()) {rest : List (List Piece × Tree)}
    (htakes : ms.Takes s (seen ++ (pieces, t) :: rest) row) :
    ∃ d', ms.accept s key t d = .ok d' := by
  -- along the members, down to the one that has the key
  induction ms with
  | nil =>
    refine ⟨d, ?_⟩
    rw [Members.accept, hskip List.not_mem_nil]
    rfl
  | cons first others ih =>
    obtain ⟨a?, d⟩ := d
    obtain ⟨a, row⟩ := row
    obtain ⟨hfirst, hothers⟩ := h
    obtain ⟨htake, htakes⟩ := htakes
    by_cases hkey : first.key = key
    · rw [valuesUnder_append, valuesUnder_cons_self (hkey ▸ hspell)] at htake
      obtain ⟨hnone, -, hread⟩ := htake.eq_singleton
      cases a? with
      | none => exact ⟨_, accept_first hkey hread d⟩
      | some a' =>
        -- the value would stand there for the second time
        obtain ⟨t', hseen, -⟩ := hfirst
        rw [hnone] at hseen
        cases hseen
    · have hskip' : key ∉ others.keys → t.skip = .ok () := by
        intro hnot
        refine hskip ?_
        rw [keys, List.mem_cons, not_or]
        exact ⟨Ne.symm hkey, hnot⟩
      obtain ⟨d', hread⟩ := ih hothers hskip' htakes
      exact ⟨_, accept_others hkey hread a?⟩

/-- So are all of them. -/
theorem Drafted.exists_acceptAll (hkeys : ms.keys.Nodup) {members : List (List Piece × Tree)}
    (hpassable : ∀ e ∈ members, Passable ms.keys e) (h : ms.Drafted s seen d)
    (htakes : ms.Takes s (seen ++ members) row) : ∃ d', ms.acceptAll s d members = .ok d' := by
  induction members generalizing seen d with
  | nil => exact ⟨d, rfl⟩
  | cons e rest ih =>
    obtain ⟨pieces, t⟩ := e
    obtain ⟨⟨key, hspell, hskip⟩, hpassable⟩ := List.forall_mem_cons.1 hpassable
    obtain ⟨next, hnext⟩ := h.exists_accept hspell hskip htakes
    have hassoc : seen ++ (pieces, t) :: rest = seen ++ [(pieces, t)] ++ rest := by simp
    rw [hassoc] at htakes
    obtain ⟨d', hd'⟩ := ih hpassable (h.accept hkeys hspell hnext) htakes
    refine ⟨d', ?_⟩
    rw [Members.acceptAll, hspell]
    simp only [bind, Except.bind, hnext, hd']

/-- The draft of an object from which a row is taken is completed to this row. -/
theorem Drafted.complete_of_takes (h : ms.Drafted s seen d) (htakes : ms.Takes s seen row) :
    ms.complete d = .ok row := by
  induction ms with
  | nil => rfl
  | cons first others ih =>
    obtain ⟨a?, d⟩ := d
    obtain ⟨a, row⟩ := row
    obtain ⟨hfirst, hothers⟩ := h
    obtain ⟨htake, htakes⟩ := htakes
    have hvalue : (a? <|> first.absent) = some a := by
      cases a? with
      | none =>
        have hnone : valuesUnder first.key seen = [] := hfirst
        rw [hnone, Member.takes_nil_iff] at htake
        exact htake
      | some a' =>
        obtain ⟨t, hseen, hread⟩ := hfirst
        rw [hseen, Member.takes_singleton_iff, hread] at htake
        exact congrArg some (Except.ok.inj htake)
    simp only [Members.complete, hvalue, ih hothers htakes, bind, Except.bind]
    rfl

end Reading

/-- An object is read as a row exactly if it is closed, nothing in it hinders the reading, and the row is
what the members take from it. -/
theorem readObject_eq_ok_iff {ms : Members αs} (hkeys : ms.keys.Nodup) {s : Scope}
    {members : List (List Piece × Tree)} {ending : ObjectEnd} {row : Row αs} :
    ms.readObject s members ending = .ok row ↔
      ∃ inner, s.enter = .ok inner ∧ ending = .closed ∧ (∀ e ∈ members, Passable ms.keys e) ∧
        ms.Takes inner members row := by
  unfold readObject
  rw [bind_eq_ok_iff]
  constructor
  · rintro ⟨inner, hinner, h⟩
    obtain ⟨d, hd, h⟩ := bind_eq_ok_iff.1 h
    obtain ⟨hend, hrow⟩ := andThen_eq_ok_iff.1 h
    exact ⟨inner, hinner, checkEnd_eq_ok_iff.1 hend, passable_of_acceptAll hd,
      ((drafted_blank inner ms).acceptAll hkeys hd).complete hrow⟩
  · rintro ⟨inner, hinner, hend, hpassable, htakes⟩
    obtain ⟨d, hd⟩ := (drafted_blank inner ms).exists_acceptAll hkeys hpassable htakes
    have hrow := ((drafted_blank inner ms).acceptAll hkeys hd).complete_of_takes htakes
    exact ⟨inner, hinner, bind_eq_ok_iff.2
      ⟨d, hd, andThen_eq_ok_iff.2 ⟨checkEnd_eq_ok_iff.2 hend, hrow⟩⟩⟩

end Members

/-! ## Records -/

/-- A record that is read from an object is made of a row with the values that the object gives. -/
theorem Codec.takes_of_read_record {α : Type} {name : String} {ms : Members αs} {make : Row αs → α}
    {row : α → Row αs} (hkeys : ms.keys.Nodup) {s : Scope} {members : List (List Piece × Tree)}
    {ending : ObjectEnd} {a : α} (h : (Codec.record name ms make row).read s (.object members ending) =
      .ok a) :
    ∃ inner values, ms.Takes inner members values ∧ make values = a := by
  obtain ⟨values, hread, hmake⟩ := map_eq_ok_iff.1 h
  obtain ⟨inner, -, -, -, htakes⟩ := (Members.readObject_eq_ok_iff hkeys).1 hread
  exact ⟨inner, values, htakes, hmake⟩

end SchemaRegistry.Json
