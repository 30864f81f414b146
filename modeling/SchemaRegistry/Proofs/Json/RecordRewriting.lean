import Mathlib.Data.List.Nodup
import SchemaRegistry.Proofs.Json.Rewriting

/-!
# Other ways to write a record

A record may be written as an object or as the array of its values in the order of declaration. A table of
forms says of each member which key it has, how its value may be written in another way, and which value
stands for it in an array if it is not given. The rewriting of the record (`Rewriting.record`) follows from
the table:
* the members of the object come in another order;
* a member is added whose key is not in the table, or the data under such a key are rewritten;
* a value that is declared is written in another way, in an object as well as in an array;
* the object is replaced by the array.

A record respects its rewriting if its members fit the table (`Codec.Respects.record`). As long as it is an
object, each member takes from the new object what it has taken from the old one (`Members.Fit.takes`), and
nothing else about an object counts. In an array the values are taken by their position.
-/

namespace SchemaRegistry.Json

variable {αs : List Type}

/-! ## Forms of members -/

/-- How a member of a record is written. -/
structure MemberForm where
  key : String
  /-- How its value may be written in another way. -/
  rewriting : Rewriting := .fixed
  /-- What is written for it in an array if it is not given; `none` if it must be given. -/
  absent : Option Value := none

namespace MemberForm

variable {forms : List MemberForm} {members : List (List Piece × Tree)} {pieces : List Piece} {t : Tree}

/-- The item of an array stands for what an object gives. -/
def Places (members : List (List Piece × Tree)) (form : MemberForm) (item : Tree) : Prop :=
  valuesUnder form.key members = [item] ∨
    valuesUnder form.key members = [] ∧ form.absent.map Tree.ofValue = some item

/-- The values that an object gives under the key are written in another way, or stay as they are. -/
def Rewrites (form : MemberForm) (values values' : List Tree) : Prop :=
  List.Forall₂ (fun t t' => t = t' ∨ form.rewriting t t') values values'

theorem rewrites_refl (form : MemberForm) (values : List Tree) : form.Rewrites values values :=
  List.forall₂_same.2 fun _ _ => .inl rfl

/-- The key is spelled, but is not in the table. -/
def Unknown (forms : List MemberForm) (pieces : List Piece) : Prop :=
  ∃ key, spellString pieces = .ok key ∧ key ∉ forms.map MemberForm.key

/-- Under a key of the table nothing changes. -/
theorem Unknown.valuesUnder_cons (h : Unknown forms pieces) {form : MemberForm} (hform : form ∈ forms) :
    valuesUnder form.key ((pieces, t) :: members) = valuesUnder form.key members := by
  obtain ⟨key, hspell, hkey⟩ := h
  refine valuesUnder_cons_of_ne hspell ?_ members
  rintro rfl
  exact hkey (List.mem_map_of_mem hform)

end MemberForm

/-- A record is written in another way. -/
inductive Rewriting.record (forms : List MemberForm) : Rewriting where
  /-- The members of the object come in any other order, since a record repeats no key. -/
  | reorder {members members' : List (List Piece × Tree)} {ending : ObjectEnd}
    (h : members.Perm members') :
    record forms (.object members ending) (.object members' ending)
  /-- A member is added that the record does not know. -/
  | add (before after : List (List Piece × Tree)) {ending : ObjectEnd} {pieces : List Piece} {t : Tree}
    (hkey : MemberForm.Unknown forms pieces) (ht : t.WellFormed) :
    record forms (.object (before ++ after) ending) (.object (before ++ (pieces, t) :: after) ending)
  /-- The data in such a member are rewritten. -/
  | unknown (before after : List (List Piece × Tree)) {ending : ObjectEnd} {pieces : List Piece}
    {t t' : Tree} (hkey : MemberForm.Unknown forms pieces) (h : data t t') :
    record forms (.object (before ++ (pieces, t) :: after) ending)
      (.object (before ++ (pieces, t') :: after) ending)
  /-- A value in the object is written in another way. -/
  | value (before after : List (List Piece × Tree)) {ending : ObjectEnd} {pieces : List Piece}
    {t t' : Tree} {form : MemberForm} (hform : form ∈ forms) (hspell : spellString pieces = .ok form.key)
    (h : form.rewriting t t') :
    record forms (.object (before ++ (pieces, t) :: after) ending)
      (.object (before ++ (pieces, t') :: after) ending)
  /-- A value in the array is written in another way. -/
  | item (before after : List Tree) {ending : ArrayEnd} {t t' : Tree} {form : MemberForm}
    (hform : forms[before.length]? = some form) (h : form.rewriting t t') :
    record forms (.array (before ++ t :: after) ending) (.array (before ++ t' :: after) ending)
  /-- The array takes the place of the object. -/
  | toArray {members : List (List Piece × Tree)} {items : List Tree}
    (h : List.Forall₂ (MemberForm.Places members) forms items) :
    record forms (.object members .closed) (.array items .closed)

/-! ## Members that fit -/

/-- The member is written as the form says. -/
structure Member.Fits {α : Type} (first : Member α) (n : Nat) (form : MemberForm) : Prop where
  key : first.key = form.key
  respects : first.codec.Respects n form.rewriting
  absent : ∀ a, first.absent = some a → ∃ v, form.absent = some v ∧
    ∀ s : Scope, n ≤ s.depth → first.codec.read s (Tree.ofValue v) = .ok a

/-- So are all members, in the order of the table. -/
inductive Members.Fit (n : Nat) : {αs : List Type} → Members αs → List MemberForm → Prop where
  | nil : Members.nil.Fit n []
  | cons {α : Type} {αs : List Type} {first : Member α} {others : Members αs} {form : MemberForm}
    {forms : List MemberForm} (hfirst : first.Fits n form) (hothers : others.Fit n forms) :
    (Members.cons first others).Fit n (form :: forms)

section Fits

variable {α : Type} {key : String} {codec : Codec α} {n : Nat} {w : Rewriting}

theorem Member.Fits.required (h : codec.Respects n w) :
    (Member.required key codec).Fits n ⟨key, w, none⟩ :=
  ⟨rfl, h, fun _ habsent => by cases habsent⟩

theorem Member.Fits.optional {absent : α} {v : Value} (h : codec.Respects n w)
    (habsent : ∀ s : Scope, n ≤ s.depth → codec.read s (Tree.ofValue v) = .ok absent) :
    (Member.optional key codec absent).Fits n ⟨key, w, some v⟩ := by
  refine ⟨rfl, h, ?_⟩
  rintro _ ⟨⟩
  exact ⟨v, rfl, habsent⟩

theorem Member.Fits.omittable {absent : α} {omits : α → Bool} {v : Value} (h : codec.Respects n w)
    (habsent : ∀ s : Scope, n ≤ s.depth → codec.read s (Tree.ofValue v) = .ok absent) :
    (Member.omittable key codec absent omits).Fits n ⟨key, w, some v⟩ := by
  refine ⟨rfl, h, ?_⟩
  rintro _ ⟨⟩
  exact ⟨v, rfl, habsent⟩

/-- From values that are written in another way the member takes the same. -/
theorem Member.Fits.takes {first : Member α} {form : MemberForm} (h : first.Fits n form) {s : Scope}
    (hdepth : n ≤ s.depth) {values values' : List Tree}
    (hvalues : values.length ≤ 1 → form.Rewrites values values') {a : α}
    (htake : first.Takes s values a) : first.Takes s values' a := by
  have hvalues := hvalues htake.length_le_one
  cases htake with
  | absent habsent =>
    obtain rfl := List.forall₂_nil_left_iff.1 hvalues
    exact .absent habsent
  | given hread =>
    obtain ⟨t', rest, hw, hrest, rfl⟩ := List.forall₂_cons_left_iff.1 hvalues
    obtain rfl := List.forall₂_nil_left_iff.1 hrest
    rcases hw with rfl | hw
    · exact .given hread
    · exact .given (h.respects _ _ hw s a hdepth hread)

/-- What stands for the value in an array is read as what the member takes. -/
theorem Member.Fits.read_placed {first : Member α} {form : MemberForm} (h : first.Fits n form) {s : Scope}
    (hdepth : n ≤ s.depth) {members : List (List Piece × Tree)} {item : Tree}
    (hitem : form.Places members item) {a : α}
    (htake : first.Takes s (valuesUnder first.key members) a) :
    first.codec.read s item = .ok a := by
  rw [h.key] at htake
  rcases hitem with hgiven | ⟨hnone, hitem⟩
  · rw [hgiven, Member.takes_singleton_iff] at htake
    exact htake
  · rw [hnone, Member.takes_nil_iff] at htake
    obtain ⟨v, hv, hread⟩ := h.absent a htake
    rw [hv] at hitem
    cases hitem
    exact hread s hdepth

end Fits

namespace Members.Fit

variable {n : Nat} {s : Scope} {ms : Members αs} {forms : List MemberForm} {row : Row αs}

theorem keys_eq (h : ms.Fit n forms) : ms.keys = forms.map MemberForm.key := by
  induction h with
  | nil => rfl
  | cons hfirst _ ih => rw [keys, List.map_cons, hfirst.key, ih]

/-- From an object with the same values, some of them written in another way, the same row is taken. -/
theorem takes (h : ms.Fit n forms) (hdepth : n ≤ s.depth) {members members' : List (List Piece × Tree)}
    (hvalues : ∀ form ∈ forms, (valuesUnder form.key members).length ≤ 1 →
      form.Rewrites (valuesUnder form.key members) (valuesUnder form.key members'))
    (htakes : ms.Takes s members row) : ms.Takes s members' row := by
  induction h with
  | nil => trivial
  | cons hfirst _ ih =>
    obtain ⟨a, row⟩ := row
    obtain ⟨htake, htakes⟩ := htakes
    obtain ⟨hvalue, hvalues⟩ := List.forall_mem_cons.1 hvalues
    rw [← hfirst.key] at hvalue
    exact ⟨hfirst.takes hdepth hvalue htake, ih hvalues htakes⟩

/-- In an array a value may be written in another way. -/
theorem takeItems_item (h : ms.Fit n forms) (hdepth : n ≤ s.depth) {before after : List Tree}
    {t t' : Tree} {form : MemberForm} (hform : forms[before.length]? = some form) (hw : form.rewriting t t')
    {expected : String} {ending : ArrayEnd} {length : Nat} {result : Row αs × List Tree}
    (hread : ms.takeItems s expected ending length (before ++ t :: after) = .ok result) :
    ms.takeItems s expected ending length (before ++ t' :: after) = .ok result := by
  -- along the members, as far as the position of the value
  induction h generalizing before length with
  | nil => cases hform
  | cons hfirst _ ih =>
    cases before with
    | nil =>
      obtain rfl := Option.some.inj hform
      obtain ⟨a, ha, hread⟩ := bind_eq_ok_iff.1 hread
      exact bind_eq_ok_iff.2 ⟨a, hfirst.respects _ _ hw s a hdepth ha, hread⟩
    | cons x before =>
      obtain ⟨a, ha, hread⟩ := bind_eq_ok_iff.1 hread
      obtain ⟨rest, hrest, hresult⟩ := bind_eq_ok_iff.1 hread
      exact bind_eq_ok_iff.2 ⟨a, ha, bind_eq_ok_iff.2 ⟨rest, ih hform hrest, hresult⟩⟩

/-- The row that is taken from an object is read from the array that stands for it. -/
theorem takeItems_placed (h : ms.Fit n forms) (hdepth : n ≤ s.depth)
    {members : List (List Piece × Tree)} {items : List Tree}
    (hitems : List.Forall₂ (MemberForm.Places members) forms items) (htakes : ms.Takes s members row)
    (expected : String) (length : Nat) :
    ms.takeItems s expected .closed length items = .ok (row, []) := by
  induction h generalizing items length with
  | nil =>
    cases hitems
    rfl
  | cons hfirst _ ih =>
    obtain ⟨a, row⟩ := row
    obtain ⟨htake, htakes⟩ := htakes
    obtain ⟨item, items, hitem, hrest, rfl⟩ := List.forall₂_cons_left_iff.1 hitems
    exact bind_eq_ok_iff.2 ⟨a, hfirst.read_placed hdepth hitem htake,
      bind_eq_ok_iff.2 ⟨_, ih hrest htakes (length + 1), rfl⟩⟩

end Members.Fit

/-! ## Records -/

section Record

variable {α : Type} {name : String} {ms : Members αs} {make : Row αs → α} {row : α → Row αs} {n : Nat}
  {forms : List MemberForm}

/-- What is read of a record does not depend on how its object is written, as long as nothing comes in
that hinders the reading, and what stands under its keys stays or is rewritten. -/
theorem Codec.follows_object (hkeys : ms.keys.Nodup) (hfit : ms.Fit (n - 1) forms)
    {members members' : List (List Piece × Tree)} {ending : ObjectEnd}
    (hpassable : (∀ e ∈ members, Members.Passable ms.keys e) →
      ∀ e ∈ members', Members.Passable ms.keys e)
    (hvalues : ∀ form ∈ forms, (valuesUnder form.key members).length ≤ 1 →
      form.Rewrites (valuesUnder form.key members) (valuesUnder form.key members')) :
    (Codec.record name ms make row).read.Follows n (.object members ending)
      (.object members' ending) := by
  intro s a hdepth hread
  obtain ⟨values, hobject, hmake⟩ := map_eq_ok_iff.1 hread
  obtain ⟨inner, hinner, hend, hall, htakes⟩ := (Members.readObject_eq_ok_iff hkeys).1 hobject
  have hroom := Scope.depth_of_enter hinner
  exact map_eq_ok_iff.2 ⟨values, (Members.readObject_eq_ok_iff hkeys).2
    ⟨inner, hinner, hend, hpassable hall, hfit.takes (by omega) hvalues htakes⟩, hmake⟩

/-- The same where some members inside the object are replaced by others. -/
theorem Codec.follows_inside (hkeys : ms.keys.Nodup) (hfit : ms.Fit (n - 1) forms)
    (before after old new : List (List Piece × Tree)) (ending : ObjectEnd)
    (hpassable : (∀ e ∈ old, Members.Passable ms.keys e) → ∀ e ∈ new, Members.Passable ms.keys e)
    (hvalues : ∀ form ∈ forms, form.Rewrites (valuesUnder form.key old) (valuesUnder form.key new)) :
    (Codec.record name ms make row).read.Follows n (.object (before ++ (old ++ after)) ending)
      (.object (before ++ (new ++ after)) ending) := by
  refine follows_object hkeys hfit ?_ ?_
  · simp only [List.forall_mem_append]
    rintro ⟨hbefore, hold, hafter⟩
    exact ⟨hbefore, hpassable hold, hafter⟩
  · intro form hform _
    simp only [valuesUnder_append]
    exact List.rel_append (form.rewrites_refl _)
      (List.rel_append (hvalues form hform) (form.rewrites_refl _))

/-- A value in the array is written in another way. -/
theorem Codec.follows_item (hfit : ms.Fit (n - 1) forms) {before after : List Tree} {t t' : Tree}
    {form : MemberForm} (hform : forms[before.length]? = some form) (hw : form.rewriting t t')
    {ending : ArrayEnd} :
    (Codec.record name ms make row).read.Follows n (.array (before ++ t :: after) ending)
      (.array (before ++ t' :: after) ending) := by
  intro s a hdepth hread
  obtain ⟨values, harray, hmake⟩ := map_eq_ok_iff.1 hread
  obtain ⟨inner, hinner, harray⟩ := bind_eq_ok_iff.1 harray
  obtain ⟨result, hresult, hrest⟩ := bind_eq_ok_iff.1 harray
  have hroom := Scope.depth_of_enter hinner
  exact map_eq_ok_iff.2 ⟨values, bind_eq_ok_iff.2 ⟨inner, hinner, bind_eq_ok_iff.2
    ⟨result, hfit.takeItems_item (by omega) hform hw hresult, hrest⟩⟩, hmake⟩

/-- The object is replaced by the array. -/
theorem Codec.follows_toArray (hkeys : ms.keys.Nodup) (hfit : ms.Fit (n - 1) forms)
    {members : List (List Piece × Tree)} {items : List Tree}
    (hitems : List.Forall₂ (MemberForm.Places members) forms items) :
    (Codec.record name ms make row).read.Follows n (.object members .closed)
      (.array items .closed) := by
  intro s a hdepth hread
  obtain ⟨values, hobject, hmake⟩ := map_eq_ok_iff.1 hread
  obtain ⟨inner, hinner, -, -, htakes⟩ := (Members.readObject_eq_ok_iff hkeys).1 hobject
  have hroom := Scope.depth_of_enter hinner
  exact map_eq_ok_iff.2 ⟨values, bind_eq_ok_iff.2 ⟨inner, hinner, bind_eq_ok_iff.2
    ⟨_, hfit.takeItems_placed (by omega) hitems htakes _ 0, rfl⟩⟩, hmake⟩

/-- A record whose members fit the table respects the rewriting of the table. -/
theorem Codec.Respects.record (hkeys : ms.keys.Nodup) (hfit : ms.Fit (n - 1) forms) :
    (Codec.record name ms make row).Respects n (.record forms) := by
  intro t t' hw
  cases hw with
  | reorder h =>
    refine follows_object hkeys hfit (fun hall e he => hall e (h.mem_iff.2 he)) ?_
    intro form _ hone
    rw [valuesUnder_eq_of_perm h hone]
    exact form.rewrites_refl _
  | @add before after ending pieces t hkey ht =>
    refine follows_inside hkeys hfit before after [] [(pieces, t)] ending ?_ ?_
    · intro _
      obtain ⟨key, hspell, -⟩ := hkey
      exact List.forall_mem_singleton.2 ⟨key, hspell, fun _ => Tree.skip_eq_ok_iff.2 ht⟩
    · intro form hform
      rw [hkey.valuesUnder_cons hform]
      exact form.rewrites_refl _
  | @unknown before after ending pieces t t' hkey h =>
    refine follows_inside hkeys hfit before after [(pieces, t)] [(pieces, t')] ending ?_ ?_
    · intro hold
      obtain ⟨key, hspell, hskip⟩ := List.forall_mem_singleton.1 hold
      refine List.forall_mem_singleton.2 ⟨key, hspell, fun hnot => ?_⟩
      exact Tree.skip_eq_ok_iff.2 ((Tree.skip_eq_ok_iff.1 (hskip hnot)).rewritten h)
    · intro form hform
      rw [hkey.valuesUnder_cons hform, hkey.valuesUnder_cons hform]
      exact form.rewrites_refl _
  | @value before after ending pieces t t' form hform hspell h =>
    refine follows_inside hkeys hfit before after [(pieces, t)] [(pieces, t')] ending ?_ ?_
    · intro _
      refine List.forall_mem_singleton.2 ⟨form.key, hspell, fun hnot => ?_⟩
      rw [hfit.keys_eq] at hnot
      exact absurd (List.mem_map_of_mem hform) hnot
    · intro other hother
      by_cases hkey : other.key = form.key
      · -- the keys of the table are distinct
        have hforms : (forms.map MemberForm.key).Nodup := hfit.keys_eq ▸ hkeys
        obtain rfl := List.inj_on_of_nodup_map hforms hother hform hkey
        rw [valuesUnder_cons_self hspell, valuesUnder_cons_self hspell]
        exact .cons (.inr h) (other.rewrites_refl _)
      · rw [valuesUnder_cons_of_ne hspell hkey, valuesUnder_cons_of_ne hspell hkey]
        exact other.rewrites_refl _
  | item _ _ hform h => exact follows_item hfit hform h
  | toArray h => exact follows_toArray hkeys hfit h

end Record

end SchemaRegistry.Json
