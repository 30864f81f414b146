import Mathlib.Data.List.Forall2
import SchemaRegistry.Json.Record

/-!
# What an object gives

A record that is read from an object has the values that the object gives: under the key of a member
stands at most one value, which the member is read from; where there is none, the member has the value
it has when it is absent (`Members.Takes`). Keys that are not declared make no difference, and neither does
the order.

The draft of a record says this of the members that have been seen so far (`Members.Drafted`), which
each further member keeps (`Members.Drafted.accept`).
-/

namespace SchemaRegistry.Json

/-! ## Steps that may fail -/

section Steps

variable {ε α β : Type}

/-- A step after another one succeeds if both do. -/
theorem bind_eq_ok_iff {x : Except ε α} {f : α → Except ε β} {b : β} :
    x >>= f = .ok b ↔ ∃ a, x = .ok a ∧ f a = .ok b := by
  cases x with
  | error fault =>
    constructor
    · intro h
      cases h
    · rintro ⟨a, ha, -⟩
      cases ha
  | ok a =>
    constructor
    · intro h
      exact ⟨a, rfl, h⟩
    · rintro ⟨a', ha, h⟩
      cases ha
      exact h

/-- The same where the first step says nothing. -/
theorem andThen_eq_ok_iff {x : Except ε Unit} {y : Except ε α} {a : α} :
    (x >>= fun _ => y) = .ok a ↔ x = .ok () ∧ y = .ok a := by
  rw [bind_eq_ok_iff]
  constructor
  · rintro ⟨⟨⟩, hx, hy⟩
    exact ⟨hx, hy⟩
  · rintro ⟨hx, hy⟩
    exact ⟨(), hx, hy⟩

theorem map_eq_ok_iff {x : Except ε α} {f : α → β} {b : β} :
    x.map f = .ok b ↔ ∃ a, x = .ok a ∧ f a = b := by
  cases x <;> simp [Except.map]

/-- The same step for every element succeeds if it does for each. -/
theorem mapM_eq_ok_iff {f : α → Except ε β} {xs : List α} {ys : List β} :
    xs.mapM f = .ok ys ↔ List.Forall₂ (fun x y => f x = .ok y) xs ys := by
  induction xs generalizing ys with
  | nil =>
    rw [List.mapM_nil, List.forall₂_nil_left_iff]
    exact ⟨fun h => (Except.ok.inj h).symm, fun h => congrArg Except.ok h.symm⟩
  | cons x xs ih =>
    rw [List.mapM_cons, bind_eq_ok_iff, List.forall₂_cons_left_iff]
    constructor
    · rintro ⟨y, hy, h⟩
      obtain ⟨rest, hrest, hys⟩ := bind_eq_ok_iff.1 h
      exact ⟨y, rest, hy, ih.1 hrest, (Except.ok.inj hys).symm⟩
    · rintro ⟨y, rest, hy, hrest, rfl⟩
      exact ⟨y, hy, bind_eq_ok_iff.2 ⟨rest, ih.2 hrest, rfl⟩⟩

/-- It fails with the fault of the first element for which the step fails. -/
theorem mapM_eq_error_iff {f : α → Except ε β} {xs : List α} {fault : ε} :
    xs.mapM f = .error fault ↔ ∃ before x after, xs = before ++ x :: after ∧
      (∀ y ∈ before, ∃ b, f y = .ok b) ∧ f x = .error fault := by
  induction xs with
  | nil =>
    constructor
    · intro h
      cases h
    · rintro ⟨before, x, after, h, -⟩
      cases before <;> cases h
  | cons x xs ih =>
    rw [List.mapM_cons]
    cases hx : f x with
    | error fault' =>
      constructor
      · intro h
        cases h
        exact ⟨[], x, xs, rfl, fun _ hy => absurd hy List.not_mem_nil, hx⟩
      · rintro ⟨before, y, after, hxs, hbefore, hy⟩
        cases before with
        | nil =>
          cases hxs
          cases hx.symm.trans hy
          rfl
        | cons z before =>
          cases hxs
          obtain ⟨b, hb⟩ := hbefore x List.mem_cons_self
          cases hx.symm.trans hb
    | ok b =>
      have hrest : ((.ok b : Except ε β) >>= fun b => xs.mapM f >>= fun bs => pure (b :: bs)) =
          .error fault ↔ xs.mapM f = .error fault := by
        cases xs.mapM f <;> simp [bind, Except.bind, pure, Except.pure]
      rw [hrest, ih]
      constructor
      · rintro ⟨before, y, after, rfl, hbefore, hy⟩
        exact ⟨x :: before, y, after, rfl, List.forall_mem_cons.2 ⟨⟨b, hx⟩, hbefore⟩, hy⟩
      · rintro ⟨before, y, after, hxs, hbefore, hy⟩
        cases before with
        | nil =>
          cases hxs
          cases hx.symm.trans hy
        | cons z before =>
          cases hxs
          exact ⟨before, y, after, rfl, (List.forall_mem_cons.1 hbefore).2, hy⟩

end Steps

/-! ## Ends of arrays and objects -/

theorem ArrayEnd.check_eq_ok_iff {ending : ArrayEnd} : ending.check = .ok () ↔ ending = .closed := by
  cases ending with
  | missing found => cases found <;> simp [check]
  | _ => simp [check]

theorem ObjectEnd.check_eq_ok_iff {ending : ObjectEnd} : ending.check = .ok () ↔ ending = .closed := by
  cases ending with
  | missing found => cases found <;> simp [check]
  | noColon key found =>
    constructor
    · intro h
      rw [check, bind_eq_ok_iff] at h
      obtain ⟨_, -, hthrown⟩ := h
      cases hthrown
    · intro h
      cases h
  | _ => simp [check]

/-! ## Values under a key -/

variable {αs : List Type}

/-- The values that an object gives under a key. -/
def valuesUnder (key : String) (members : List (List Piece × Tree)) : List Tree :=
  (members.filter fun e => (spellString e.1).toOption == some key).map (·.2)

section ValuesUnder

variable {key other : String} {pieces : List Piece} {t : Tree}

@[simp] theorem valuesUnder_nil (key : String) : valuesUnder key [] = [] := rfl

theorem valuesUnder_append (key : String) (before after : List (List Piece × Tree)) :
    valuesUnder key (before ++ after) = valuesUnder key before ++ valuesUnder key after := by
  simp [valuesUnder]

theorem valuesUnder_cons_self (h : spellString pieces = .ok key)
    (members : List (List Piece × Tree)) :
    valuesUnder key ((pieces, t) :: members) = t :: valuesUnder key members := by
  simp [valuesUnder, h, Except.toOption]

theorem valuesUnder_cons_of_ne (h : spellString pieces = .ok other) (hne : key ≠ other)
    (members : List (List Piece × Tree)) :
    valuesUnder key ((pieces, t) :: members) = valuesUnder key members := by
  simp [valuesUnder, h, Except.toOption, Ne.symm hne]

end ValuesUnder

/-! ## Members -/

/-- The value of a member where an object gives `values` under its key. -/
inductive Member.Takes {α : Type} (s : Scope) (first : Member α) : List Tree → α → Prop where
  | absent {a : α} (h : first.absent = some a) : first.Takes s [] a
  | given {t : Tree} {a : α} (h : first.codec.read s t = .ok a) : first.Takes s [t] a

namespace Members

/-- Every value of the row is the one that its member takes from the object. -/
def Takes (s : Scope) (members : List (List Piece × Tree)) :
    {αs : List Type} → Members αs → Row αs → Prop
  | _, .nil, _ => True
  | _, .cons first others, (a, row) =>
    first.Takes s (valuesUnder first.key members) a ∧ others.Takes s members row

/-- The draft holds what has been read of the members seen so far: nothing for a member whose key was
not among them, otherwise its value. -/
def Drafted (s : Scope) (seen : List (List Piece × Tree)) :
    {αs : List Type} → Members αs → Draft αs → Prop
  | _, .nil, _ => True
  | _, .cons first others, (a?, d) =>
    (match a? with
      | none => valuesUnder first.key seen = []
      | some a => ∃ t, valuesUnder first.key seen = [t] ∧ first.codec.read s t = .ok a) ∧
    others.Drafted s seen d

theorem drafted_blank (s : Scope) (ms : Members αs) : ms.Drafted s [] ms.blank := by
  induction ms with
  | nil => trivial
  | cons first others ih => exact ⟨rfl, ih⟩

section Step

variable {s : Scope} {seen : List (List Piece × Tree)} {ms : Members αs} {d d' : Draft αs}
  {pieces : List Piece} {key : String} {t : Tree}

/-- A key that no member has leaves the draft right. -/
theorem Drafted.append_of_not_mem (h : ms.Drafted s seen d) (hspell : spellString pieces = .ok key)
    (hkey : key ∉ ms.keys) : ms.Drafted s (seen ++ [(pieces, t)]) d := by
  induction ms with
  | nil => trivial
  | cons first others ih =>
    obtain ⟨a?, d⟩ := d
    obtain ⟨hfirst, hothers⟩ := h
    rw [keys, List.mem_cons, not_or] at hkey
    refine ⟨?_, ih hothers hkey.2⟩
    rwa [valuesUnder_append, valuesUnder_cons_of_ne hspell (Ne.symm hkey.1), valuesUnder_nil,
      List.append_nil]

/-- A value is read into the member that has its key, if nothing was read into it before; otherwise it
is left to the other members. -/
theorem accept_cons_cases {α : Type} {first : Member α} {others : Members αs} {a? a?' : Option α}
    (h : (Members.cons first others).accept s key t (a?, d) = .ok (a?', d')) :
    (first.key = key ∧ a? = none ∧ d' = d ∧ ∃ a, first.codec.read s t = .ok a ∧ a?' = some a) ∨
      (first.key ≠ key ∧ a?' = a? ∧ others.accept s key t d = .ok d') := by
  by_cases hkey : first.key = key
  · cases a? with
    | some a =>
      simp only [Members.accept, hkey] at h
      cases h
    | none =>
      simp only [Members.accept, hkey] at h
      obtain ⟨a, ha, hdraft⟩ := bind_eq_ok_iff.1 h
      cases hdraft
      exact .inl ⟨hkey, rfl, rfl, a, ha, rfl⟩
  · simp only [Members.accept, hkey] at h
    obtain ⟨rest, hrest, hdraft⟩ := bind_eq_ok_iff.1 h
    cases hdraft
    exact .inr ⟨hkey, rfl, hrest⟩

/-- Reading one more member keeps the draft right. -/
theorem Drafted.accept (h : ms.Drafted s seen d) (hkeys : ms.keys.Nodup)
    (hspell : spellString pieces = .ok key) (hread : ms.accept s key t d = .ok d') :
    ms.Drafted s (seen ++ [(pieces, t)]) d' := by
  -- along the members, since the value goes to the first one that has the key
  induction ms with
  | nil => trivial
  | cons first others ih =>
    obtain ⟨a?, d⟩ := d
    obtain ⟨a?', d'⟩ := d'
    obtain ⟨hfirst, hothers⟩ := h
    obtain ⟨hfresh, hkeys⟩ := List.nodup_cons.1 hkeys
    rcases accept_cons_cases hread with ⟨rfl, rfl, rfl, a, ha, rfl⟩ | ⟨hkey, rfl, hrest⟩
    · -- none of the other members has the key
      refine ⟨⟨t, ?_, ha⟩, hothers.append_of_not_mem hspell hfresh⟩
      have hnone : valuesUnder first.key seen = [] := hfirst
      rw [valuesUnder_append, hnone, valuesUnder_cons_self hspell, valuesUnder_nil, List.nil_append]
    · refine ⟨?_, ih hothers hkeys hrest⟩
      rwa [valuesUnder_append, valuesUnder_cons_of_ne hspell hkey, valuesUnder_nil, List.append_nil]

/-- So does reading the members of an object one after the other. -/
theorem Drafted.acceptAll (h : ms.Drafted s seen d) (hkeys : ms.keys.Nodup)
    {members : List (List Piece × Tree)} (hread : ms.acceptAll s d members = .ok d') :
    ms.Drafted s (seen ++ members) d' := by
  induction members generalizing seen d with
  | nil =>
    cases hread
    rwa [List.append_nil]
  | cons e rest ih =>
    obtain ⟨pieces, t⟩ := e
    rw [Members.acceptAll, bind_eq_ok_iff] at hread
    obtain ⟨key, hspell, hread⟩ := hread
    obtain ⟨next, hnext, hrest⟩ := bind_eq_ok_iff.1 hread
    have hall := ih (h.accept hkeys hspell hnext) hrest
    rwa [List.append_assoc, List.singleton_append] at hall

/-- At the end the members that were not seen get the values of absent ones. -/
theorem Drafted.complete (h : ms.Drafted s seen d) {row : Row αs} (hread : ms.complete d = .ok row) :
    ms.Takes s seen row := by
  induction ms with
  | nil => trivial
  | cons first others ih =>
    obtain ⟨a?, d⟩ := d
    obtain ⟨hfirst, hothers⟩ := h
    rw [Members.complete] at hread
    cases a? with
    | some a =>
      obtain ⟨rest, hrest, hrow⟩ := bind_eq_ok_iff.1 hread
      cases hrow
      obtain ⟨t, hvalues, ha⟩ := hfirst
      refine ⟨?_, ih hothers hrest⟩
      rw [hvalues]
      exact .given ha
    | none =>
      have hnone : valuesUnder first.key seen = [] := hfirst
      cases habsent : first.absent with
      | none =>
        rw [habsent] at hread
        cases hread
      | some a =>
        rw [habsent] at hread
        obtain ⟨rest, hrest, hrow⟩ := bind_eq_ok_iff.1 hread
        cases hrow
        refine ⟨?_, ih hothers hrest⟩
        rw [hnone]
        exact .absent habsent

end Step

end Members

/-- What is parsed is read from the tree of the text. -/
theorem Codec.read_of_parse {α : Type} {codec : Codec α} {text : String} {a : α}
    (h : codec.parse text = .ok a) : codec.read .ofText (Tree.ofText text).1 = .ok a := by
  unfold Codec.parse at h
  generalize Tree.ofText text = said at h ⊢
  obtain ⟨tree, goesOn⟩ := said
  obtain ⟨a', hread, h⟩ := bind_eq_ok_iff.1 h
  cases goesOn with
  | true => cases h
  | false =>
    cases h
    exact hread

/-! ## Values of members -/

namespace Reader

variable {α : Type} {s : Scope} {t : Tree}

theorem mismatch_ne_ok (expected : String) (t : Tree) (a : α) : mismatch expected t ≠ .ok a := by
  intro h
  cases t with
  | number n => cases n <;> cases h
  | string pieces =>
    obtain ⟨spelled, -, hthrown⟩ := bind_eq_ok_iff.1 h
    cases hthrown
  | _ => cases h

theorem boolean_eq_ok_iff {b : Bool} : boolean s t = .ok b ↔ t = .boolean b := by
  by_cases hboolean : ∃ b', t = .boolean b'
  · obtain ⟨b', rfl⟩ := hboolean
    constructor
    · intro h
      cases h
      rfl
    · intro h
      cases h
      rfl
  · have hother : boolean s t = mismatch "a boolean" t := by
      cases t with
      | boolean b' => exact absurd ⟨b', rfl⟩ hboolean
      | _ => rfl
    rw [hother]
    constructor
    · intro h
      exact absurd h (mismatch_ne_ok _ _ _)
    · intro h
      exact absurd ⟨b, h⟩ hboolean

/-- From `null` nothing is read, and from anything else a value. -/
theorem option_eq_ok_iff {r : Reader α} {a? : Option α} :
    option r s t = .ok a? ↔
      t = .null ∧ a? = none ∨ t ≠ .null ∧ ∃ a, r s t = .ok a ∧ some a = a? := by
  by_cases hnull : t = .null
  · subst hnull
    constructor
    · intro h
      cases h
      exact .inl ⟨rfl, rfl⟩
    · rintro (⟨-, rfl⟩ | ⟨hnot, -⟩)
      · rfl
      · exact absurd rfl hnot
  · have hread : option r s t = (r s t).map some := by
      cases t with
      | null => exact absurd rfl hnull
      | _ => rfl
    rw [hread, map_eq_ok_iff]
    simp [hnull]

/-- The items of an array are read in their order. -/
theorem list_array_eq_ok_iff {r : Reader α} {items : List Tree} {ending : ArrayEnd} {as : List α} :
    list r s (.array items ending) = .ok as ↔
      ∃ inner, s.enter = .ok inner ∧ ending = .closed ∧
        List.Forall₂ (fun t a => r inner t = .ok a) items as := by
  rw [list, bind_eq_ok_iff]
  constructor
  · rintro ⟨inner, hinner, h⟩
    obtain ⟨as', hitems, h⟩ := bind_eq_ok_iff.1 h
    obtain ⟨hend, h⟩ := andThen_eq_ok_iff.1 h
    obtain rfl := Except.ok.inj h
    exact ⟨inner, hinner, ArrayEnd.check_eq_ok_iff.1 hend, mapM_eq_ok_iff.1 hitems⟩
  · rintro ⟨inner, hinner, hend, hitems⟩
    exact ⟨inner, hinner, bind_eq_ok_iff.2 ⟨as, mapM_eq_ok_iff.2 hitems,
      andThen_eq_ok_iff.2 ⟨ArrayEnd.check_eq_ok_iff.2 hend, rfl⟩⟩⟩

end Reader

namespace Member.Takes

variable {key : String} {s : Scope} {values : List Tree}

/-- Where the object gives nothing or `null`, the member has no value, and only there. -/
theorem eq_none_iff {α : Type} {codec : Codec α} {a? : Option α}
    (h : (Member.optional key (.option codec) none).Takes s values a?) :
    a? = none ↔ values = [] ∨ values = [.null] := by
  cases h with
  | absent h =>
    cases h
    simp
  | given h =>
    rcases Reader.option_eq_ok_iff.1 h with ⟨rfl, rfl⟩ | ⟨hnull, a, -, rfl⟩
    · simp
    · simp [hnull]

theorem eq_some_boolean_iff {b? : Option Bool}
    (h : (Member.optional key (.option .boolean) none).Takes s values b?) (b : Bool) :
    b? = some b ↔ values = [.boolean b] := by
  cases h with
  | absent h =>
    cases h
    simp
  | given h =>
    rcases Reader.option_eq_ok_iff.1 h with ⟨rfl, rfl⟩ | ⟨-, b', hread, rfl⟩
    · simp
    · obtain rfl := (Reader.boolean_eq_ok_iff (s := s)).1 hread
      simp

end Member.Takes

end SchemaRegistry.Json
