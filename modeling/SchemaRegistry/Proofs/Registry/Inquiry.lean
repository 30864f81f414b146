import SchemaRegistry.Registry.Lookup

/-!
# What a registry can be asked

An `Inquiry` is one of the ways to ask a registry for artifacts. Whatever is asked for, the registry
realizes some of its slots (`Registry.slotsFor`) in a fixed order and stops after the first one without
artifact, and its reply depends on nothing but the answers it got (`Registry.reply_eq`). This holds in
every monad and for every way to realize a slot. So whoever wants to know what inquiries do has to look at
`Slot.realizeInOrder` only.
-/

namespace SchemaRegistry

variable {m : Type → Type}

/-- What a registry can be asked for. -/
inductive Inquiry where
  /-- The artifact under an identifier or else a declared name. -/
  | lookup (category : Category) (key : String)
  /-- The artifact under an identifier, as other registries ask for it. -/
  | find (category : Category) (identifier : String)
  /-- All artifacts. -/
  | materialize

/-- What a registry replies. -/
inductive Reply where
  | artifact (a : Option Artifact)
  | total (outcome : Except MissingImport Nat)

section Realizing

variable {n : Type → Type} [Monad n]

namespace Registry

/-- The reply to an inquiry. -/
def reply (realize : Realization m n) (r : Registry m) : Inquiry → n Reply
  | .lookup category key => return .artifact (← r.lookup realize category key)
  | .find category identifier => return .artifact (← r.find realize category identifier)
  | .materialize => return .total (← r.materialize realize)

/-- The replies to inquiries that are made one after the other. -/
def replies (realize : Realization m n) (r : Registry m) : List Inquiry → n (List Reply)
  | [] => return []
  | inquiry :: rest => do
    let reply ← r.reply realize inquiry
    return reply :: (← replies realize r rest)

/-- The slots that an inquiry is about, in the order in which they are realized. -/
def slotsFor (r : Registry m) : Inquiry → List (Category × Slot m)
  | .lookup category key => ((r.index category).resolve? key).toList.map (category, ·)
  | .find category identifier => ((r.index category).find? identifier).toList.map (category, ·)
  | .materialize => r.types.slots.map (.type, ·) ++ r.directives.slots.map (.directive, ·)

end Registry

/-- Realizes slots in their order, up to the first one without artifact. -/
def Slot.realizeInOrder (realize : Realization m n) :
    List (Category × Slot m) → n (List (Option Artifact))
  | [] => return []
  | (category, slot) :: rest => do
    match ← realize category slot with
    | none => return [none]
    | some a => return some a :: (← realizeInOrder realize rest)

/-- Counts the artifacts of slots, or names the slot that has none. -/
def Slot.tally : List (Category × Slot m) → List (Option Artifact) → Except MissingImport Nat
  | (category, slot) :: _, none :: _ =>
    .error ⟨category, slot.identifier, slot.producer.sourceName?.getD ""⟩
  | _ :: slots, some _ :: answers => (tally slots answers).map (· + 1)
  | _, _ => .ok 0

/-- The reply, once the slots have been realized with these answers. -/
def Registry.conclude (r : Registry m) : Inquiry → List (Option Artifact) → Reply
  | .lookup _ _, answers => .artifact answers.head?.join
  | .find _ _, answers => .artifact answers.head?.join
  | .materialize, answers => .total (Slot.tally (r.slotsFor .materialize) answers)

/-! ## Registered slots -/

theorem Index.mem_slots_of_find? {index : Index m} {identifier : String} {slot : Slot m}
    (h : index.find? identifier = some slot) : slot ∈ index.slots := by
  rcases Option.bind_eq_some_iff.1 h with ⟨p, -, hslot⟩
  exact List.mem_of_getElem? hslot

theorem Index.mem_slots_of_resolve? {index : Index m} {key : String} {slot : Slot m}
    (h : index.resolve? key = some slot) : slot ∈ index.slots := by
  unfold Index.resolve? at h
  split at h
  · rename_i found hfound
    cases h
    exact mem_slots_of_find? hfound
  · rcases Option.bind_eq_some_iff.1 h with ⟨identifier, -, hslot⟩
    exact mem_slots_of_find? hslot

/-- An inquiry is about registered slots only. -/
theorem Registry.mem_slots_of_mem_slotsFor {r : Registry m} {inquiry : Inquiry} {category : Category}
    {slot : Slot m} (h : (category, slot) ∈ r.slotsFor inquiry) :
    slot ∈ (r.index category).slots := by
  cases inquiry with
  | lookup c key =>
    have h : ∃ s, (r.index c).resolve? key = some s ∧ c = category ∧ s = slot := by
      simpa [Registry.slotsFor] using h
    rcases h with ⟨s, hs, rfl, rfl⟩
    exact Index.mem_slots_of_resolve? hs
  | find c identifier =>
    have h : ∃ s, (r.index c).find? identifier = some s ∧ c = category ∧ s = slot := by
      simpa [Registry.slotsFor] using h
    rcases h with ⟨s, hs, rfl, rfl⟩
    exact Index.mem_slots_of_find? hs
  | materialize =>
    rcases List.mem_append.1 h with h | h
    · rcases List.mem_map.1 h with ⟨s, hs, heq⟩
      cases heq
      exact hs
    · rcases List.mem_map.1 h with ⟨s, hs, heq⟩
      cases heq
      exact hs

/-! ## The reply is concluded from the answers -/

namespace Slot

variable [LawfulMonad n] (realize : Realization m n)

/-- To realize one slot or none is to have its answer. -/
theorem head?_realizeInOrder (category : Category) (slot? : Option (Slot m)) :
    (fun answers => answers.head?.join) <$>
        realizeInOrder realize (slot?.toList.map (category, ·)) =
      match slot? with
      | some slot => realize category slot
      | none => pure none := by
  cases slot? with
  | none => simp [realizeInOrder]
  | some slot =>
    have hjoin : ∀ answer : Option Artifact,
        (fun answers : List (Option Artifact) => answers.head?.join) <$>
            (match answer with
              | none => pure [none]
              | some a => do return some a :: (← realizeInOrder realize []) :
                n (List (Option Artifact))) =
          pure answer := by
      intro answer
      cases answer <;> simp [realizeInOrder]
    simp only [Option.toList_some, List.map_cons, List.map_nil, realizeInOrder, map_bind]
    calc _ = realize category slot >>= pure := bind_congr hjoin
      _ = realize category slot := bind_pure _

/-- Realizing the slots of a category and then others is realizing them all in order. -/
theorem tally_realizeInOrder_append (category : Category) (slots : List (Slot m))
    (others : List (Category × Slot m)) :
    tally (slots.map (category, ·) ++ others) <$>
        realizeInOrder realize (slots.map (category, ·) ++ others) =
      (do
        match ← Registry.materializeSlots realize category slots with
        | .error missing => return .error missing
        | .ok count =>
          return (← tally others <$> realizeInOrder realize others).map (count + ·)) := by
  induction slots with
  | nil =>
    have hzero : ∀ outcome : Except MissingImport Nat, outcome.map (fun count => count) = outcome := by
      intro outcome
      cases outcome <;> rfl
    simp [Registry.materializeSlots, hzero]
  | cons slot rest ih =>
    simp only [List.map_cons, List.cons_append, realizeInOrder, Registry.materializeSlots, map_bind,
      bind_assoc]
    refine bind_congr ?_
    intro answer
    cases answer with
    | none => simp [tally]
    | some a =>
      -- one more artifact is counted on both sides
      calc _ = (Except.map (· + 1)) <$> (tally (rest.map (category, ·) ++ others) <$>
            realizeInOrder realize (rest.map (category, ·) ++ others)) := by
            simp only [Functor.map_map, bind_pure_comp]
            rfl
        _ = _ := by
            rw [ih]
            simp only [map_bind, bind_assoc, pure_bind]
            refine bind_congr ?_
            intro outcome
            cases outcome with
            | error missing => simp [Except.map]
            | ok count =>
              have hcount : ∀ outcome : Except MissingImport Nat,
                  (outcome.map (count + ·)).map (· + 1) = outcome.map (count + 1 + ·) := by
                intro outcome
                cases outcome with
                | error missing => rfl
                | ok others => simp [Except.map]; omega
              have hone : (Except.ok count : Except MissingImport Nat).map (· + 1) =
                  .ok (count + 1) := rfl
              simp only [hone, bind_pure_comp, Functor.map_map, hcount]

end Slot

namespace Registry

variable [LawfulMonad n] {realize : Realization m n}

theorem materializeSlots_eq (category : Category) (slots : List (Slot m)) :
    materializeSlots realize category slots = Slot.tally (slots.map (category, ·)) <$>
      Slot.realizeInOrder realize (slots.map (category, ·)) := by
  have happend := Slot.tally_realizeInOrder_append realize category slots []
  rw [List.append_nil] at happend
  rw [happend]
  calc materializeSlots realize category slots
      = materializeSlots realize category slots >>= pure := (bind_pure _).symm
    _ = _ := by
      refine bind_congr ?_
      intro outcome
      cases outcome with
      | error missing => rfl
      | ok count => simp [Slot.realizeInOrder, Slot.tally, Except.map]

theorem materialize_eq (realize : Realization m n) (r : Registry m) :
    r.materialize realize = Slot.tally (r.slotsFor .materialize) <$>
      Slot.realizeInOrder realize (r.slotsFor .materialize) := by
  rw [slotsFor, Slot.tally_realizeInOrder_append, ← materializeSlots_eq]
  rfl

/-- Whoever asks by a key that leads to a slot gets the answer of the slot. -/
theorem reply_lookup {r : Registry m} {category : Category} {key : String} {slot : Slot m}
    (h : (r.index category).resolve? key = some slot) :
    r.reply realize (.lookup category key) = Reply.artifact <$> realize category slot := by
  simp [reply, lookup, h]

theorem reply_find {r : Registry m} {category : Category} {identifier : String} {slot : Slot m}
    (h : (r.index category).find? identifier = some slot) :
    r.reply realize (.find category identifier) = Reply.artifact <$> realize category slot := by
  simp [reply, find, h]

/-- Whatever a registry is asked for, it realizes the slots in their order and concludes the reply from
their answers. -/
theorem reply_eq (realize : Realization m n) (r : Registry m) (inquiry : Inquiry) :
    r.reply realize inquiry =
      r.conclude inquiry <$> Slot.realizeInOrder realize (r.slotsFor inquiry) := by
  cases inquiry with
  | lookup category key =>
    have hslot := Slot.head?_realizeInOrder realize category
      ((r.index category).resolve? key)
    have hconclude : r.conclude (.lookup category key) =
        Reply.artifact ∘ fun answers => answers.head?.join := rfl
    rw [hconclude, slotsFor, comp_map, hslot]
    exact bind_pure_comp Reply.artifact (r.lookup realize category key)
  | find category identifier =>
    have hslot := Slot.head?_realizeInOrder realize category
      ((r.index category).find? identifier)
    have hconclude : r.conclude (.find category identifier) =
        Reply.artifact ∘ fun answers => answers.head?.join := rfl
    rw [hconclude, slotsFor, comp_map, hslot]
    exact bind_pure_comp Reply.artifact (r.find realize category identifier)
  | materialize =>
    have hconclude : r.conclude .materialize =
        Reply.total ∘ Slot.tally (r.slotsFor .materialize) := rfl
    rw [hconclude, comp_map, ← materialize_eq]
    exact bind_pure_comp Reply.total (r.materialize realize)

end Registry

end Realizing

end SchemaRegistry
