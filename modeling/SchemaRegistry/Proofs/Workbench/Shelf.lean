import SchemaRegistry.Workbench
import SchemaRegistry.Proofs.Registry.RunLog

/-!
# Answers on the shelf

What registries have kept on a shelf can be trusted if it is what they would answer anyway. Let `answers` say
for each registry what its slots come to. A shelf is good as far as the registries before some number are
concerned if these have kept nothing else (`Shelf.Keeps`). Work that comes to the same result from all such
shelves, leaves a good shelf behind and does not touch what the other registries have kept, yields its result
(`Yields`).

Registries are numbered in the order in which they were added, and import from earlier ones only. So if the
producers of a registry yield answers (`ShelvedRegistry.Settled`), it makes no difference to any inquiry
whether its answers are kept or obtained anew (`ShelvedRegistry.Settled.yields_reply`), and other registries
can import from either (`ShelvedRegistry.Settled.yields_find`).
-/

namespace SchemaRegistry

variable {α β : Type}

/-- For each registry, by its number, the answer to each of its slots, by category and identifier. -/
abbrev Answers := Nat → Category → String → Option Artifact

namespace Shelf

/-- What a registry has kept. -/
def cache (shelf : Shelf) (number : Nat) : Cache := shelf.caches[number]?.getD {}

/-- The shelf after a registry has put something else in its place. -/
def withCache (shelf : Shelf) (number : Nat) (cache : Cache) : Shelf :=
  { shelf with caches := shelf.caches.set number cache }

theorem cache_withCache (shelf : Shelf) (number other : Nat) (cache : Cache) :
    (shelf.withCache number cache).cache other =
      if other = number ∧ number < shelf.caches.length then cache else shelf.cache other := by
  unfold withCache Shelf.cache
  rw [List.getElem?_set]
  by_cases hsame : number = other
  · subst hsame
    by_cases hlength : number < shelf.caches.length
    · simp [hlength]
    · simp [hlength]
  · simp [hsame, Ne.symm hsame]

theorem run_within (number : Nat) (work : StateT Cache Work α) (shelf : Shelf) :
    (within number work).run shelf =
      let out := (work.run (shelf.cache number)).run shelf
      (out.1.1, out.2.withCache number out.1.2) := rfl

/-- The registries before `bound` have kept nothing but these answers. -/
def Keeps (shelf : Shelf) (answers : Answers) (bound : Nat) : Prop :=
  ∀ number < bound, ∀ category identifier answer,
    (shelf.cache number).get? category identifier = some answer →
      answer = answers number category identifier

/-- Where nothing was kept, nothing else was kept. -/
theorem keeps_empty (answers : Answers) (bound : Nat) : Keeps {} answers bound := by
  intro number _ category identifier answer h
  cases category <;> cases h

theorem Keeps.mono {shelf : Shelf} {answers : Answers} {bound bound' : Nat}
    (h : shelf.Keeps answers bound') (hle : bound ≤ bound') : shelf.Keeps answers bound :=
  fun number hlt => h number (Nat.lt_of_lt_of_le hlt hle)

/-- From one shelf to the other the registries before `bound` have kept nothing but these answers, and those
after it nothing at all. -/
structure Passes (answers : Answers) (bound : Nat) (shelf shelf' : Shelf) : Prop where
  keeps : shelf'.Keeps answers bound
  others : ∀ number, bound ≤ number → shelf'.cache number = shelf.cache number
  length_eq : shelf'.caches.length = shelf.caches.length

namespace Passes

variable {answers : Answers} {bound : Nat} {shelf shelf' shelf'' : Shelf}

protected theorem refl (h : shelf.Keeps answers bound) : Passes answers bound shelf shelf where
  keeps := h
  others _ _ := rfl
  length_eq := rfl

protected theorem trans (h : Passes answers bound shelf shelf')
    (h' : Passes answers bound shelf' shelf'') : Passes answers bound shelf shelf'' where
  keeps := h'.keeps
  others number hle := (h'.others number hle).trans (h.others number hle)
  length_eq := h'.length_eq.trans h.length_eq

/-- What registries after `bound` have kept does not matter. -/
theorem mono {answers' : Answers} {bound' : Nat} (h : Passes answers bound shelf shelf')
    (hle : bound ≤ bound') (hsame : ∀ number < bound, answers' number = answers number)
    (hshelf : shelf.Keeps answers' bound') : Passes answers' bound' shelf shelf' where
  keeps := by
    intro number hlt
    by_cases hbefore : number < bound
    · rw [hsame number hbefore]
      exact h.keeps number hbefore
    · rw [h.others number (Nat.le_of_not_lt hbefore)]
      exact hshelf number hlt
  others number hle' := h.others number (Nat.le_trans hle hle')
  length_eq := h.length_eq

/-- Then the next registry may keep its answers. -/
theorem withCache {number : Nat} (h : Passes answers number shelf shelf') {cache : Cache}
    (hcache : ∀ category identifier answer, cache.get? category identifier = some answer →
      answer = answers number category identifier) :
    Passes answers (number + 1) shelf (shelf'.withCache number cache) where
  keeps := by
    intro other hlt category identifier answer hanswer
    rw [cache_withCache] at hanswer
    split at hanswer
    case isTrue hsame =>
      rw [hsame.1]
      exact hcache category identifier answer hanswer
    case isFalse hother =>
      rcases Nat.lt_or_eq_of_le (Nat.le_of_lt_succ hlt) with hbefore | rfl
      · exact h.keeps other hbefore category identifier answer hanswer
      · -- a registry without a place has kept nothing
        have hlength : shelf'.caches.length ≤ other := Nat.le_of_not_lt fun hlt => hother ⟨rfl, hlt⟩
        rw [Shelf.cache, List.getElem?_eq_none hlength] at hanswer
        cases category <;> cases hanswer
  others other hle := by
    rw [cache_withCache, if_neg (by omega), h.others other (by omega)]
  length_eq := by
    rw [Shelf.withCache, List.length_set, h.length_eq]

end Passes

end Shelf

/-! ## Work with one result -/

/-- From every shelf on which the registries before `bound` have kept nothing but these answers, the work comes
to the result, and it leaves such a shelf. -/
def Yields (answers : Answers) (bound : Nat) (work : Work α) (a : α) : Prop :=
  ∀ shelf : Shelf, shelf.Keeps answers bound →
    ∃ shelf', work.run shelf = (a, shelf') ∧ shelf.Passes answers bound shelf'

namespace Yields

variable {answers answers' : Answers} {bound bound' : Nat} {work : Work α} {a : α}

protected theorem pure (answers : Answers) (bound : Nat) (a : α) : Yields answers bound (pure a) a :=
  fun shelf hshelf => ⟨shelf, rfl, .refl hshelf⟩

protected theorem bind (h : Yields answers bound work a) {next : α → Work β} {b : β}
    (hnext : Yields answers bound (next a) b) : Yields answers bound (work >>= next) b := by
  intro shelf hshelf
  obtain ⟨between, hrun, hbetween⟩ := h shelf hshelf
  obtain ⟨shelf', hrun', hshelf'⟩ := hnext between hbetween.keeps
  refine ⟨shelf', ?_, hbetween.trans hshelf'⟩
  rw [StateT.run_bind, hrun]
  exact hrun'

protected theorem map (h : Yields answers bound work a) (f : α → β) :
    Yields answers bound (f <$> work) (f a) := by
  rw [← bind_pure_comp]
  exact h.bind (.pure answers bound (f a))

/-- Work that some registries have a say in does not see the others. -/
theorem mono (h : Yields answers bound work a) (hle : bound ≤ bound')
    (hsame : ∀ number < bound, answers' number = answers number) : Yields answers' bound' work a := by
  intro shelf hshelf
  have hbefore : shelf.Keeps answers bound := by
    intro number hlt
    rw [← hsame number hlt]
    exact hshelf number (Nat.lt_of_lt_of_le hlt hle)
  obtain ⟨shelf', hrun, hpasses⟩ := h shelf hbefore
  exact ⟨shelf', hrun, hpasses.mono hle hsame hshelf⟩

theorem run_eq (h : Yields answers bound work a) {shelf : Shelf} (hshelf : shelf.Keeps answers bound) :
    (work.run shelf).1 = a := by
  obtain ⟨shelf', hrun, -⟩ := h shelf hshelf
  rw [hrun]

theorem passes (h : Yields answers bound work a) {shelf : Shelf} (hshelf : shelf.Keeps answers bound) :
    shelf.Passes answers bound (work.run shelf).2 := by
  obtain ⟨shelf', hrun, hpasses⟩ := h shelf hshelf
  rw [hrun]
  exact hpasses

end Yields

/-! ## Registries that keep their answers -/

/-- The answers of a registry, for its slots. -/
def Answers.of (answers : Answers) (number : Nat) : Realization Work Id :=
  fun category slot => pure (answers number category slot.identifier)

/-- Slots that yield their answers one by one yield them in their order. -/
theorem yields_realizeInOrder {answers : Answers} {bound number : Nat} {realize : Realization Work Work}
    {slots : List (Category × Slot Work)}
    (h : ∀ e ∈ slots, Yields answers bound (realize e.1 e.2) (answers number e.1 e.2.identifier)) :
    Yields answers bound (Slot.realizeInOrder realize slots)
      (Slot.realizeInOrder (answers.of number) slots).run := by
  induction slots with
  | nil => exact .pure answers bound []
  | cons e rest ih =>
    obtain ⟨hfirst, hrest⟩ := List.forall_mem_cons.1 h
    rw [Slot.realizeInOrder, Slot.realizeInOrder, Answers.of, pure_bind]
    refine hfirst.bind ?_
    cases answers number e.1 e.2.identifier with
    | none => exact .pure answers bound [none]
    | some a => exact (ih hrest).bind (.pure answers bound _)

namespace ShelvedRegistry

variable {r : ShelvedRegistry} {answers : Answers}

/-- The producers of the registry yield its answers, with nothing but the registries before it. -/
def Settled (r : ShelvedRegistry) (answers : Answers) : Prop :=
  ∀ category, ∀ slot ∈ (r.registry.index category).slots,
    Yields answers r.number slot.producer.realize (answers r.number category slot.identifier)

/-- What a registry replies to an inquiry if its slots have these answers. -/
def replyFrom (r : ShelvedRegistry) (answers : Answers) (inquiry : Inquiry) : Reply :=
  (r.registry.reply (answers.of r.number) inquiry).run

/-- A slot that yields its answer yields it also if the answer is kept: either it was kept already, or the
producer runs. -/
theorem yields_realize {category : Category} {slot : Slot Work}
    (h : Yields answers r.number slot.producer.realize (answers r.number category slot.identifier)) :
    Yields answers (r.number + 1) (r.realize category slot)
      (answers r.number category slot.identifier) := by
  intro shelf hshelf
  have hbefore : shelf.Keeps answers r.number := hshelf.mono (Nat.le_succ _)
  have hown : ∀ category identifier answer,
      (shelf.cache r.number).get? category identifier = some answer →
        answer = answers r.number category identifier := hshelf r.number (Nat.lt_succ_self _)
  rw [realize, Shelf.run_within]
  cases hkept : (shelf.cache r.number).get? category slot.identifier with
  | some answer =>
    obtain rfl := hown category slot.identifier answer hkept
    rw [Slot.run_realizeOnce_of_kept hkept]
    exact ⟨_, rfl, (Shelf.Passes.refl hbefore).withCache hown⟩
  | none =>
    obtain ⟨shelf', hrun, hpasses⟩ := h shelf hbefore
    have hkeeps : ∀ category' identifier' answer,
        ((shelf.cache r.number).insert category slot.identifier
            (answers r.number category slot.identifier)).get? category' identifier' = some answer →
          answer = answers r.number category' identifier' := by
      intro category' identifier' answer hanswer
      rw [Cache.get?_insert] at hanswer
      split at hanswer
      case isTrue hsame =>
        obtain ⟨rfl, rfl⟩ := hsame
        exact (Option.some.inj hanswer).symm
      case isFalse => exact hown category' identifier' answer hanswer
    rw [Slot.run_realizeOnce_of_new hkept, StateT.run_map, hrun]
    exact ⟨_, rfl, hpasses.withCache hkeeps⟩

namespace Settled

/-- Only the answers of the registry itself and of those before it matter. -/
theorem congr {answers' : Answers} (h : r.Settled answers)
    (hsame : ∀ number ≤ r.number, answers' number = answers number) : r.Settled answers' := by
  intro category slot hslot
  rw [hsame r.number (Nat.le_refl _)]
  exact (h category slot hslot).mono (Nat.le_refl _) fun number hlt => hsame number (Nat.le_of_lt hlt)

/-- Whether the registry keeps its answers or obtains them anew, it has the same reply to an inquiry, whatever
has been asked for before. -/
theorem yields_reply (h : r.Settled answers) (inquiry : Inquiry) :
    Yields answers (r.number + 1) (r.registry.reply r.realize inquiry) (r.replyFrom answers inquiry) ∧
      Yields answers (r.number + 1) (r.registry.reply Slot.realize inquiry)
        (r.replyFrom answers inquiry) := by
  rw [replyFrom, Registry.reply_eq, Registry.reply_eq, Registry.reply_eq]
  constructor
  · refine (yields_realizeInOrder ?_).map (r.registry.conclude inquiry)
    rintro ⟨category, slot⟩ hslot
    exact yields_realize (h category slot (Registry.mem_slots_of_mem_slotsFor hslot))
  · refine (yields_realizeInOrder ?_).map (r.registry.conclude inquiry)
    rintro ⟨category, slot⟩ hslot
    exact (h category slot (Registry.mem_slots_of_mem_slotsFor hslot)).mono (Nat.le_succ _)
      fun _ _ => rfl

/-- Other registries find the same in a source that keeps its answers as in one that does not. -/
theorem yields_find (h : r.Settled answers) (name : String) (category : Category) (identifier : String) :
    ∃ answer,
      Yields answers (r.number + 1) ((r.asSource name).find category identifier) answer ∧
        Yields answers (r.number + 1) ((r.registry.asSource name).find category identifier) answer := by
  simp only [asSource, Registry.asSource, Registry.find]
  cases hslot : (r.registry.index category).find? identifier with
  | none => exact ⟨none, .pure _ _ none, .pure _ _ none⟩
  | some slot =>
    have hproducer := h category slot (Index.mem_slots_of_find? hslot)
    exact ⟨_, yields_realize hproducer, hproducer.mono (Nat.le_succ _) fun _ _ => rfl⟩

end Settled

end ShelvedRegistry

end SchemaRegistry
