import SchemaRegistry.Proofs.Registry.Index
import SchemaRegistry.Proofs.Registry.Inquiry

/-!
# The log of the producers

A registry that keeps answers cannot tell whether a producer has run or an answer was at hand. So the
producers get a log: `Slot.realizeOnceLogged` is `Slot.realizeOnce` with producers that note each of their
runs, and `ComesTo` says that work with the log comes to the same as work without it.

`InStep` ties the cache to the log. What is kept is what the log says, so no slot is in the log twice.
-/

namespace SchemaRegistry

variable {m : Type → Type} {σ α β : Type}

/-! ## The log of the runs -/

/-- One run of the producer of a slot, with its outcome. -/
structure ProducerRun where
  category : Category
  /-- The identifier of the slot. -/
  identifier : String
  answer : Option Artifact

/-- The slot that the producer is from, by its category and identifier. -/
def ProducerRun.slotKey (run : ProducerRun) : Category × String := (run.category, run.identifier)

/-- Runs in the order in which they happened. -/
abbrev RunLog := List ProducerRun

/-- The outcome that a log has for a slot. -/
def RunLog.answer? (runs : RunLog) : Realization m Option := fun category slot =>
  (runs.find? (·.slotKey == (category, slot.identifier))).map (·.answer)

/-- The producer with a log of its runs. -/
def Producer.logged [Monad m] (category : Category) (identifier : String) :
    Producer m → Producer (StateT RunLog m)
  | .fetch source category' identifier' =>
    .fetch ⟨source.name, fun category' identifier' => do
      let answer ← source.find category' identifier'
      modify (· ++ [⟨category, identifier, answer⟩])
      return answer⟩ category' identifier'
  | .build builder declaration =>
    .build (fun declaration => do
      let artifact ← builder declaration
      modify (· ++ [⟨category, identifier, some artifact⟩])
      return artifact) declaration

/-- The slot, the runs of whose producer are logged. -/
def Slot.logged [Monad m] (category : Category) (slot : Slot m) : Slot (StateT RunLog m) :=
  ⟨slot.identifier, slot.producer.logged category slot.identifier⟩

/-- Realizes a slot once and for all, and logs the runs of its producer. -/
def Slot.realizeOnceLogged [Monad m] : Realization m (StateT Cache (StateT RunLog m)) :=
  fun category slot => Slot.realizeOnce category (slot.logged category)

/-- A run adds its outcome to the log and does nothing else. -/
theorem Producer.run_realize_logged [Monad m] [LawfulMonad m] (p : Producer m) (category : Category)
    (identifier : String) (runs : RunLog) :
    (p.logged category identifier).realize.run runs =
      (do
        let answer ← p.realize
        return (answer, runs ++ [⟨category, identifier, answer⟩])) := by
  cases p with
  | fetch source category' identifier' => simp [logged, realize]
  | build builder declaration => simp [logged, realize]

/-- An answer that is kept is given again. -/
theorem Slot.run_realizeOnce_of_kept [Monad m] [LawfulMonad m] {cache : Cache} {category : Category}
    {slot : Slot m} {answer : Option Artifact}
    (h : cache.get? category slot.identifier = some answer) :
    (Slot.realizeOnce category slot).run cache = pure (answer, cache) := by
  simp [Slot.realizeOnce, h]

/-- Otherwise the producer runs, and its answer is kept. -/
theorem Slot.run_realizeOnce_of_new [Monad m] [LawfulMonad m] {cache : Cache} {category : Category}
    {slot : Slot m} (h : cache.get? category slot.identifier = none) :
    (Slot.realizeOnce category slot).run cache =
      (fun answer => (answer, cache.insert category slot.identifier answer)) <$>
        slot.producer.realize := by
  simp [Slot.realizeOnce, h]

theorem Cache.get?_insert (cache : Cache) (category category' : Category)
    (identifier identifier' : String) (answer : Option Artifact) :
    (cache.insert category identifier answer).get? category' identifier' =
      if category' = category ∧ identifier' = identifier then some answer
      else cache.get? category' identifier' := by
  cases category <;> cases category' <;> simp [insert, get?, SortedMap.get?_insert]

/-! ## What is kept is what is in the log -/

/-- The cache keeps exactly the outcomes in the log, and no slot is in the log twice. -/
structure InStep (cache : Cache) (runs : RunLog) : Prop where
  kept : ∀ category identifier answer,
    cache.get? category identifier = some answer ↔ ⟨category, identifier, answer⟩ ∈ runs
  once : (runs.map ProducerRun.slotKey).Nodup

theorem inStep_nil : InStep {} [] where
  kept := by
    intro category identifier answer
    cases category <;> simp [Cache.get?]
  once := List.nodup_nil

/-- Where no slot is twice, the outcome for a slot is the one of its run. -/
theorem RunLog.answer?_eq_some_iff {runs : RunLog} (h : (runs.map ProducerRun.slotKey).Nodup)
    {category : Category} {slot : Slot m} {answer : Option Artifact} :
    runs.answer? category slot = some answer ↔ ⟨category, slot.identifier, answer⟩ ∈ runs := by
  unfold RunLog.answer?
  rw [Option.map_eq_some_iff]
  simp only [find?_key_eq_some_iff h]
  constructor
  · rintro ⟨⟨c, i, a⟩, ⟨hmem, hkey⟩, rfl⟩
    cases hkey
    exact hmem
  · intro hmem
    exact ⟨_, ⟨hmem, rfl⟩, rfl⟩

/-- A slot that is not kept can be added on both sides. -/
theorem InStep.insert {cache : Cache} {runs : RunLog} (h : InStep cache runs) {category : Category}
    {identifier : String} (hnew : cache.get? category identifier = none)
    (answer : Option Artifact) :
    InStep (cache.insert category identifier answer)
      (runs ++ [⟨category, identifier, answer⟩]) := by
  have hfree : ∀ a, (⟨category, identifier, a⟩ : ProducerRun) ∉ runs := by
    intro a hmem
    rw [← h.kept, hnew] at hmem
    cases hmem
  constructor
  case kept =>
    intro category' identifier' answer'
    rw [Cache.get?_insert, List.mem_append, List.mem_singleton, ← h.kept]
    -- the new slot itself, and the others, of which nothing has changed
    by_cases hsame : category' = category ∧ identifier' = identifier
    · rcases hsame with ⟨rfl, rfl⟩
      simp [hnew, eq_comm]
    · have hother : (⟨category', identifier', answer'⟩ : ProducerRun) ≠
          ⟨category, identifier, answer⟩ := by
        intro heq
        cases heq
        exact hsame ⟨rfl, rfl⟩
      rw [if_neg hsame, or_iff_left hother]
  case once =>
    rw [List.map_append, List.nodup_append]
    refine ⟨h.once, List.nodup_singleton _, ?_⟩
    intro key hkey key' hkey' heq
    rcases List.mem_map.1 hkey with ⟨⟨c, i, a⟩, hrun, rfl⟩
    have hkey' : key' = (category, identifier) := List.mem_singleton.1 hkey'
    rw [hkey'] at heq
    cases heq
    exact hfree a hrun

/-! ## Work with and without a log -/

/-- From a cache, a log and a world, work comes to a result and leaves others behind. The same work
without a log comes to the same. -/
structure ComesTo (logged : StateT Cache (StateT RunLog (StateM σ)) α)
    (plain : StateT Cache (StateM σ) α) (cache : Cache) (runs : RunLog) (world : σ)
    (a : α) (cache' : Cache) (runs' : RunLog) (world' : σ) : Prop where
  logged : ((logged.run cache).run runs).run world = (((a, cache'), runs'), world')
  plain : (plain.run cache).run world = ((a, cache'), world')

namespace ComesTo

variable {logged : StateT Cache (StateT RunLog (StateM σ)) α} {plain : StateT Cache (StateM σ) α}
  {cache cache' cache'' : Cache} {runs runs' runs'' : RunLog} {world world' world'' : σ}

protected theorem pure (a : α) (cache : Cache) (runs : RunLog) (world : σ) :
    ComesTo (pure a) (pure a) cache runs world a cache runs world :=
  ⟨rfl, rfl⟩

protected theorem bind {a : α} (h : ComesTo logged plain cache runs world a cache' runs' world')
    {logged' : α → StateT Cache (StateT RunLog (StateM σ)) β}
    {plain' : α → StateT Cache (StateM σ) β} {b : β}
    (h' : ComesTo (logged' a) (plain' a) cache' runs' world' b cache'' runs'' world'') :
    ComesTo (logged >>= logged') (plain >>= plain') cache runs world b cache'' runs'' world'' where
  logged := by
    have hrun : (((logged >>= logged').run cache).run runs).run world =
        (((logged.run cache).run runs).run world >>= fun out =>
          (((logged' out.1.1.1).run out.1.1.2).run out.1.2).run out.2) := rfl
    rw [hrun, h.logged]
    exact h'.logged
  plain := by
    have hrun : ((plain >>= plain').run cache).run world =
        ((plain.run cache).run world >>= fun out =>
          ((plain' out.1.1).run out.1.2).run out.2) := rfl
    rw [hrun, h.plain]
    exact h'.plain

protected theorem map {a : α} (h : ComesTo logged plain cache runs world a cache' runs' world')
    (f : α → β) :
    ComesTo (f <$> logged) (f <$> plain) cache runs world (f a) cache' runs' world' := by
  rw [← bind_pure_comp, ← bind_pure_comp]
  exact h.bind (.pure (f a) cache' runs' world')

end ComesTo

end SchemaRegistry
