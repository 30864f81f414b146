import SchemaRegistry.Proofs.Definition.Preparation
import SchemaRegistry.Proofs.Registry.Turn

/-!
# What linking changes

Linking looks for one mutation type and one subscription type. Where one of them is missing or declared
several times, the list stays as it is. Otherwise one position changes, the one of the mutation type, and
there only attributes of fields (`linkTriggers_exact`).

Which type is meant is said by its position (`Definition.SoleAt`), and what a field notes by the list of
all triggers that the subscription type declares, one after the other (`Definition.declaredTriggers`).
Nothing here depends on the two root types being different.
-/

namespace SchemaRegistry

variable {m : Type → Type}

namespace Definition

variable {ds : List (Definition m)} {identifier : String} {p : Nat} {d : Definition m}

/-! ## The only type with an identifier -/

/-- The definition `d` at position `p` is the only type with the identifier. -/
structure SoleAt (ds : List (Definition m)) (identifier : String) (p : Nat) (d : Definition m) :
    Prop where
  here : ds[p]? = some d
  named : d.isTypeNamed identifier = true
  only : ∀ q e, ds[q]? = some e → e.isTypeNamed identifier = true → q = p

theorem SoleAt.filter_eq (h : SoleAt ds identifier p d) :
    ds.filter (isTypeNamed identifier) = [d] := by
  have hbefore : (ds.take p).filter (isTypeNamed identifier) = [] := by
    rw [List.filter_eq_nil_iff]
    intro e he hnamed
    obtain ⟨q, hq⟩ := List.mem_iff_getElem?.1 he
    obtain ⟨hlt, hget⟩ : q < p ∧ ds[q]? = some e := by
      rw [List.getElem?_take] at hq
      split at hq
      · exact ⟨by assumption, hq⟩
      · cases hq
    have heq := h.only q e hget hnamed
    omega
  have hafter : (ds.drop (p + 1)).filter (isTypeNamed identifier) = [] := by
    rw [List.filter_eq_nil_iff]
    intro e he hnamed
    obtain ⟨q, hq⟩ := List.mem_iff_getElem?.1 he
    rw [List.getElem?_drop] at hq
    have heq := h.only (p + 1 + q) e hq hnamed
    omega
  rw [← take_append_cons_drop h.here, List.filter_append, List.filter_cons_of_pos h.named, hbefore,
    hafter, List.nil_append]

theorem exists_soleAt (h : ds.filter (isTypeNamed identifier) = [d]) :
    ∃ p, SoleAt ds identifier p d := by
  obtain ⟨before, after, rfl, hbefore, hnamed, hafter⟩ := List.filter_eq_cons_iff.1 h
  refine ⟨before.length, by simp, hnamed, ?_⟩
  intro q e hget hname
  rcases Nat.lt_trichotomy q before.length with hlt | heq | hgt
  · rw [List.getElem?_append_left hlt] at hget
    exact absurd hname (hbefore e (List.mem_of_getElem? hget))
  · exact heq
  · -- it would stand after the only type
    obtain ⟨k, rfl⟩ := Nat.exists_eq_add_of_lt hgt
    rw [List.getElem?_append_right (by omega)] at hget
    have hmem : e ∈ after := by
      have hk : before.length + k + 1 - before.length = k + 1 := by omega
      rw [hk, List.getElem?_cons_succ] at hget
      exact List.mem_of_getElem? hget
    exact absurd hname (List.filter_eq_nil_iff.1 hafter e hmem)

/-- The search for a root type succeeds if and only if there is exactly one type with its identifier. -/
theorem soleType?_eq_some_iff_soleAt :
    soleType? ds identifier = some d ↔ ∃ p, SoleAt ds identifier p d := by
  rw [soleType?_eq_some_iff]
  constructor
  · exact exists_soleAt
  · rintro ⟨p, h⟩
    exact h.filter_eq

/-! ## What a field notes -/

/-- The triggers that a definition declares, each with the field it is declared at: field by field, and
at each field in their order. -/
def declaredTriggers (s : Definition m) : List (Field × Trigger) :=
  s.fields.flatMap fun f => f.triggers.map fun t => (f, t)

/-- Those of the declared triggers that name the mutation field. -/
def triggersNaming (s : Definition m) (mutationField : String) : List (Field × Trigger) :=
  s.declaredTriggers.filter fun declared => mutationField ∈ declared.2.mutations.toList

/-- A trigger as it is noted: an array of the subscription field and of what the trigger hands on. -/
def noted (declared : Field × Trigger) : Json.Data :=
  .array [.text declared.1.identifier, declared.2.config]

theorem firedBy_eq_map_noted (s : Definition m) (mutationField : String) :
    firedBy s mutationField = (s.triggersNaming mutationField).map noted := by
  have hfires : ∀ t : Trigger,
      t.firesOn mutationField = decide (mutationField ∈ t.mutations.toList) := by
    intro t
    rw [Bool.eq_iff_iff, decide_eq_true_eq]
    exact SortedSet.mem_iff_contains.symm
  simp only [firedBy, triggersNaming, declaredTriggers, List.filter_flatMap, List.map_flatMap,
    List.filter_map, List.map_map, hfires]
  rfl

end Definition

/-- The mutation field `f` has become `f'` by noting these triggers. -/
structure Field.Linked (fired : List (Field × Trigger)) (f f' : Field) : Prop where
  /-- Only attributes have changed, -/
  kept : { f' with attrs := f.attrs } = f
  /-- and of these only one. -/
  others : ∀ key, key ≠ "triggers" → f'.attrs.get? key = f.attrs.get? key
  /-- Without triggers that one is as it was, whether there was one or not. -/
  unfired : fired = [] → f' = f
  /-- Otherwise it lists all of them, in their order. -/
  listed : fired ≠ [] → f'.attrs.get? "triggers" = some (.array (fired.map Definition.noted))

namespace Definition

theorem linked_linkField (s : Definition m) (f : Field) :
    Field.Linked (s.triggersNaming f.identifier) f (linkField s f) := by
  unfold linkField
  rw [firedBy_eq_map_noted]
  cases hfired : s.triggersNaming f.identifier with
  | nil => exact ⟨rfl, fun _ _ => rfl, fun _ => rfl, fun hne => absurd rfl hne⟩
  | cons first rest =>
    constructor
    case kept => rfl
    case others =>
      intro key hkey
      exact SortedMap.get?_insert_of_ne _ _ hkey
    case unfired => exact fun hnil => absurd hnil (List.cons_ne_nil _ _)
    case listed => exact fun _ => SortedMap.get?_insert_self _ _ _

/-! ## What linking changes -/

variable {mutation subscription : String}

/-- Linking the definitions one by one changes the position of the mutation type only. -/
theorem SoleAt.map_link (h : SoleAt ds mutation p d) (s : Definition m) :
    ds.map (link mutation s) = ds.set p (d.withFields (d.fields.map (linkField s))) := by
  apply List.ext_getElem?
  intro q
  rw [List.getElem?_map, List.getElem?_set]
  by_cases hq : p = q
  · subst hq
    have hlt : p < ds.length := (List.getElem?_eq_some_iff.1 h.here).1
    rw [if_pos rfl, if_pos hlt, h.here, Option.map_some, link, if_pos h.named]
  · rw [if_neg hq]
    cases hget : ds[q]? with
    | none => rfl
    | some e =>
      have hother : ¬ e.isTypeNamed mutation = true := fun hname => hq (h.only q e hget hname).symm
      rw [Option.map_some, link, if_neg hother]

end Definition

open Definition (SoleAt linkTriggers)

/-- If there is not exactly one mutation type and exactly one subscription type, linking leaves the
definitions as they are. Otherwise it changes the definition at the position of the mutation type, and of
it only the fields: each notes all those triggers of the subscription type that name it, and is else as
it was. -/
theorem linkTriggers_exact (mutation subscription : String) (ds : List (Definition m)) :
    (¬ ((∃ p d, SoleAt ds mutation p d) ∧ ∃ q s, SoleAt ds subscription q s) →
      linkTriggers mutation subscription ds = ds) ∧
    ∀ p d q s, SoleAt ds mutation p d → SoleAt ds subscription q s →
      ∃ fields, linkTriggers mutation subscription ds = ds.set p (d.withFields fields) ∧
        List.Forall₂ (fun f f' => Field.Linked (s.triggersNaming f.identifier) f f')
          d.fields fields := by
  constructor
  · intro hmissing
    rcases Definition.linkTriggers_cases mutation subscription ds with
      ⟨hsame, -⟩ | ⟨s, hs, ⟨d, hd⟩, -⟩
    · exact hsame
    · obtain ⟨p, hp⟩ := Definition.soleType?_eq_some_iff_soleAt.1 hd
      obtain ⟨q, hq⟩ := Definition.soleType?_eq_some_iff_soleAt.1 hs
      exact absurd ⟨⟨p, d, hp⟩, q, s, hq⟩ hmissing
  · intro p d q s hp hq
    have hd := Definition.soleType?_eq_some_iff_soleAt.2 ⟨p, hp⟩
    have hs := Definition.soleType?_eq_some_iff_soleAt.2 ⟨q, hq⟩
    refine ⟨d.fields.map (Definition.linkField s), ?_, ?_⟩
    · rcases Definition.linkTriggers_cases mutation subscription ds with
        ⟨-, hnone⟩ | ⟨s', hs', -, hlinked⟩
      · simp [hd, hs] at hnone
      · -- the subscription type that is found is the one at position `q`
        obtain rfl : s' = s := Option.some.inj (hs'.symm.trans hs)
        rw [hlinked, hp.map_link]
    · rw [List.forall₂_map_right_iff, List.forall₂_same]
      intro f _
      exact Definition.linked_linkField s f

/-! ## One type in both roles -/

/-- The only type of the list: its first field triggers the first two, the first one twice. Every field
has something under the attribute already, and a directive has the identifier of the type. -/
def selfTriggering : List (Definition Id) :=
  let field (identifier : String) (triggers : List Trigger) : Field :=
    { identifier, name := identifier, attrs := .ofList [("triggers", .text "old")], triggers }
  [{ category := .directive, identifier := "root", name := "root", origin := .built .plain },
    { category := .type, identifier := "root", name := "Root", origin := .built .plain,
      fields := [field "save" [⟨.ofList ["save", "drop"], .ofNat 1⟩, ⟨.ofList ["save"], .ofNat 1⟩],
        field "drop" [], field "keep" []] }]

theorem soleAt_selfTriggering : SoleAt selfTriggering "root" 1 selfTriggering[1] := by
  obtain ⟨p, h⟩ := Definition.soleType?_eq_some_iff_soleAt.1
    (rfl : Definition.soleType? selfTriggering "root" = some selfTriggering[1])
  obtain rfl : 1 = p := h.only 1 _ rfl rfl
  exact h

/-- The type notes its own triggers, with repetition and in place of what stood there; the field that
nothing names keeps what it had. -/
theorem selfTriggering_linked :
    SoleAt selfTriggering "root" 1 selfTriggering[1] ∧
      ∃ save drop, linkTriggers "root" "root" selfTriggering =
          selfTriggering.set 1 (selfTriggering[1].withFields
            [save, drop, selfTriggering[1].fields[2]]) ∧
        save.attrs.get? "triggers" = some (.array
          [.array [.text "save", .ofNat 1], .array [.text "save", .ofNat 1]]) ∧
        drop.attrs.get? "triggers" = some (.array [.array [.text "save", .ofNat 1]]) := by
  have hsole := soleAt_selfTriggering
  obtain ⟨fields, hlinked, hfields⟩ :=
    (linkTriggers_exact "root" "root" selfTriggering).2 1 _ 1 _ hsole hsole
  refine ⟨hsole, ?_⟩
  cases hfields with
  | cons hsave hrest =>
    cases hrest with
    | cons hdrop hrest =>
      cases hrest with
      | cons hkeep hrest =>
        cases hrest
        have hnone : Definition.triggersNaming selfTriggering[1] "keep" = [] := rfl
        obtain rfl := hkeep.unfired hnone
        exact ⟨_, _, hlinked, hsave.listed (by decide), hdrop.listed (by decide)⟩

end SchemaRegistry
