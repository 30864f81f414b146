import SchemaRegistry.Proofs.Registry.RunLog
import SchemaRegistry.Proofs.Registry.Invariant

/-!
# Realizing once

Answers are kept, so that a producer runs when its slot is asked for the first time and never again. Apart
from that nobody can tell (`slots_are_realized_once`).

One step is to realize a slot (`exists_realizeOnce`). It keeps the cache in step with the log, and the log
grows only for a reason (`Grows`). Both carry over to slots in their order, to an inquiry, and to any number
of inquiries (`exists_replies`). Since a log only grows, in the end all replies can be read off one log:
they are those of a registry whose slots are realized by looking there. With producers that are steady, to
look into the log is to run the producer (`Registry.RealizesOnce.reply_anew`).
-/

namespace SchemaRegistry

variable {m : Type → Type} {σ : Type}

/-! ## Realizing slots -/

/-- In the order of the slots this one is reached: all before it have an artifact. -/
def Reached (runs : RunLog) (slots : List (Category × Slot m)) (category : Category)
    (slot : Slot m) : Prop :=
  ∃ before after, slots = before ++ (category, slot) :: after ∧
    ∀ e ∈ before, ∃ a, ⟨e.1, e.2.identifier, some a⟩ ∈ runs

/-- The answer is one that the producer gives in some world. -/
def Producer.Gives (p : Producer (StateM σ)) (answer : Option Artifact) : Prop :=
  ∃ world, (p.realize.run world).1 = answer

/-- The log has grown by runs for which there was a reason: the producer of a slot that was asked for gave
the answer. -/
structure Grows (asked : Category → Slot (StateM σ) → Prop) (runs runs' : RunLog) : Prop where
  kept : runs ⊆ runs'
  fresh : ∀ run ∈ runs', run ∈ runs ∨ ∃ slot, asked run.category slot ∧
    slot.identifier = run.identifier ∧ slot.producer.Gives run.answer

theorem Reached.mono {runs runs' : RunLog} (hsub : runs ⊆ runs') {slots : List (Category × Slot m)}
    {category : Category} {slot : Slot m} (h : Reached runs slots category slot) :
    Reached runs' slots category slot := by
  rcases h with ⟨before, after, hslots, hbefore⟩
  refine ⟨before, after, hslots, ?_⟩
  intro e he
  rcases hbefore e he with ⟨a, ha⟩
  exact ⟨a, hsub ha⟩

theorem reached_head (runs : RunLog) (category : Category) (slot : Slot m)
    (rest : List (Category × Slot m)) :
    Reached runs ((category, slot) :: rest) category slot :=
  ⟨[], rest, rfl, by simp⟩

/-- Behind a slot with an artifact others are reached. -/
theorem Reached.cons {runs : RunLog} {rest : List (Category × Slot m)} {category : Category}
    {slot : Slot m} (h : Reached runs rest category slot) {first : Category × Slot m} {a : Artifact}
    (hfirst : ⟨first.1, first.2.identifier, some a⟩ ∈ runs) :
    Reached runs (first :: rest) category slot := by
  rcases h with ⟨before, after, hslots, hbefore⟩
  refine ⟨first :: before, after, by rw [hslots, List.cons_append], ?_⟩
  intro e he
  rcases List.mem_cons.1 he with rfl | he
  · exact ⟨a, hfirst⟩
  · exact hbefore e he

theorem Grows.refl (asked : Category → Slot (StateM σ) → Prop) (runs : RunLog) :
    Grows asked runs runs where
  kept := List.Subset.refl runs
  fresh := by
    intro run hrun
    exact .inl hrun

theorem Grows.trans {asked asked' asked'' : Category → Slot (StateM σ) → Prop}
    {runs runs' runs'' : RunLog} (h : Grows asked runs runs') (h' : Grows asked' runs' runs'')
    (hasked : ∀ category slot, asked category slot → asked'' category slot)
    (hasked' : ∀ category slot, asked' category slot → asked'' category slot) :
    Grows asked'' runs runs'' where
  kept := List.Subset.trans h.kept h'.kept
  fresh := by
    intro run hrun
    rcases h'.fresh run hrun with hrun | ⟨slot, hslot, hidentifier, hgives⟩
    · rcases h.fresh run hrun with hrun | ⟨slot, hslot, hidentifier, hgives⟩
      · exact .inl hrun
      · exact .inr ⟨slot, hasked _ _ hslot, hidentifier, hgives⟩
    · exact .inr ⟨slot, hasked' _ _ hslot, hidentifier, hgives⟩

/-- Realizing one slot: either its answer is kept already and nothing happens, or the producer runs. -/
theorem exists_realizeOnce {cache : Cache} {runs : RunLog} (h : InStep cache runs)
    (category : Category) (slot : Slot (StateM σ)) (world : σ) :
    ∃ answer cache' runs' world',
      ComesTo (Slot.realizeOnceLogged category slot) (Slot.realizeOnce category slot) cache runs
        world answer cache' runs' world' ∧
      InStep cache' runs' ∧
      Grows (fun c s => c = category ∧ s = slot) runs runs' ∧
      ⟨category, slot.identifier, answer⟩ ∈ runs' := by
  cases hcache : cache.get? category slot.identifier with
  | some answer =>
    -- what is kept is in the log already
    refine ⟨answer, cache, runs, world, ⟨?_, ?_⟩, h, .refl _ runs, (h.kept _ _ _).1 hcache⟩
    · have hlogged : (Slot.realizeOnce category (slot.logged category)).run cache =
          pure (answer, cache) := Slot.run_realizeOnce_of_kept hcache
      rw [Slot.realizeOnceLogged, hlogged]
      rfl
    · rw [Slot.run_realizeOnce_of_kept hcache]
      rfl
  | none =>
    -- the producer runs in the present world, and its answer goes to the cache and to the log
    cases hrun : slot.producer.realize.run world with
    | mk answer world' =>
      refine ⟨answer, cache.insert category slot.identifier answer,
        runs ++ [⟨category, slot.identifier, answer⟩], world', ⟨?_, ?_⟩, h.insert hcache answer,
        ⟨List.subset_append_left _ _, ?_⟩, by simp⟩
      · have hnew : cache.get? category (slot.logged category).identifier = none := hcache
        rw [Slot.realizeOnceLogged, Slot.run_realizeOnce_of_new hnew, Slot.logged]
        simp only [StateT.run_map, Producer.run_realize_logged, bind_pure_comp, hrun]
        rfl
      · rw [Slot.run_realizeOnce_of_new hcache, StateT.run_map, hrun]
        rfl
      · intro run hmem
        rcases List.mem_append.1 hmem with hold | hnew
        · exact .inl hold
        · rw [List.mem_singleton] at hnew
          rw [hnew]
          exact .inr ⟨slot, ⟨rfl, rfl⟩, rfl, world, congrArg Prod.fst hrun⟩

/-- A realization that has more to say gives the same answers. -/
theorem Slot.realizeInOrder_mono {f g : Realization m Option}
    (h : ∀ category slot answer, f category slot = some answer → g category slot = some answer)
    {slots : List (Category × Slot m)} {answers : List (Option Artifact)}
    (hread : Slot.realizeInOrder f slots = some answers) :
    Slot.realizeInOrder g slots = some answers := by
  induction slots generalizing answers with
  | nil => exact hread
  | cons e rest ih =>
    rcases e with ⟨category, slot⟩
    rcases Option.bind_eq_some_iff.1 hread with ⟨answer, hanswer, hrest⟩
    refine Option.bind_eq_some_iff.2 ⟨answer, h category slot answer hanswer, ?_⟩
    -- both stop here, or both go on
    cases answer with
    | none => exact hrest
    | some a =>
      rcases Option.bind_eq_some_iff.1 hrest with ⟨others, hothers, hall⟩
      exact Option.bind_eq_some_iff.2 ⟨others, ih hothers, hall⟩

/-- What an earlier log says, a later one says as well. -/
theorem RunLog.answer?_mono {runs runs' : RunLog} (hsub : runs ⊆ runs')
    (h : (runs.map ProducerRun.slotKey).Nodup) (h' : (runs'.map ProducerRun.slotKey).Nodup)
    (category : Category) (slot : Slot m) (answer : Option Artifact)
    (hanswer : runs.answer? category slot = some answer) :
    runs'.answer? category slot = some answer := by
  rw [RunLog.answer?_eq_some_iff h] at hanswer
  rw [RunLog.answer?_eq_some_iff h']
  exact hsub hanswer

/-- Realizing slots in their order: the answers are those in the log, and no slot behind the first one
without artifact is reached. -/
theorem exists_realizeInOrder (slots : List (Category × Slot (StateM σ))) {cache : Cache}
    {runs : RunLog} (h : InStep cache runs) (world : σ) :
    ∃ answers cache' runs' world',
      ComesTo (Slot.realizeInOrder Slot.realizeOnceLogged slots)
        (Slot.realizeInOrder Slot.realizeOnce slots) cache runs world answers cache' runs' world' ∧
      InStep cache' runs' ∧
      Grows (Reached runs' slots) runs runs' ∧
      Slot.realizeInOrder runs'.answer? slots = some answers := by
  induction slots generalizing cache runs world with
  | nil => exact ⟨[], cache, runs, world, .pure _ _ _ _, h, .refl _ runs, rfl⟩
  | cons e rest ih =>
    rcases e with ⟨category, slot⟩
    rcases exists_realizeOnce h category slot world with
      ⟨answer, cache₁, runs₁, world₁, hfirst, hstep₁, hgrows₁, hrun⟩
    cases answer with
    | none =>
      -- the others are not asked for
      refine ⟨[none], cache₁, runs₁, world₁, hfirst.bind (.pure _ _ _ _), hstep₁, ?_, ?_⟩
      · refine hgrows₁.trans (.refl (Reached runs₁ ((category, slot) :: rest)) runs₁) ?_ ?_
        · rintro c s ⟨rfl, rfl⟩
          exact reached_head runs₁ c s rest
        · intro c s hreached
          exact hreached
      · have hanswer := (RunLog.answer?_eq_some_iff hstep₁.once).2 hrun
        exact Option.bind_eq_some_iff.2 ⟨none, hanswer, rfl⟩
    | some a =>
      rcases ih hstep₁ world₁ with
        ⟨answers, cache₂, runs₂, world₂, hothers, hstep₂, hgrows₂, hread⟩
      have hrun₂ : ⟨category, slot.identifier, some a⟩ ∈ runs₂ := hgrows₂.kept hrun
      refine ⟨some a :: answers, cache₂, runs₂, world₂,
        hfirst.bind (hothers.bind (.pure _ _ _ _)), hstep₂, ?_, ?_⟩
      · refine hgrows₁.trans hgrows₂ ?_ ?_
        · rintro c s ⟨rfl, rfl⟩
          exact reached_head runs₂ c s rest
        · intro c s hreached
          exact hreached.cons hrun₂
      · have hanswer := (RunLog.answer?_eq_some_iff hstep₂.once).2 hrun₂
        exact Option.bind_eq_some_iff.2
          ⟨some a, hanswer, Option.bind_eq_some_iff.2 ⟨answers, hread, rfl⟩⟩

/-! ## Inquiries -/

namespace Registry

/-- The inquiry is about the slot, and all slots before it have an artifact. So it comes down to the slot
that a key leads to; asking for everything comes down to the slots up to the first one without
artifact. -/
def Needs (r : Registry m) (runs : RunLog) (inquiry : Inquiry) (category : Category)
    (slot : Slot m) : Prop :=
  Reached runs (r.slotsFor inquiry) category slot

theorem Needs.mem_slots {r : Registry m} {runs : RunLog} {inquiry : Inquiry} {category : Category}
    {slot : Slot m} (h : r.Needs runs inquiry category slot) : slot ∈ (r.index category).slots := by
  rcases h with ⟨before, after, hslots, -⟩
  have hmem : (category, slot) ∈ r.slotsFor inquiry := by simp [hslots]
  exact mem_slots_of_mem_slotsFor hmem

theorem reply_mono {f g : Realization m Option}
    (h : ∀ category slot answer, f category slot = some answer → g category slot = some answer)
    {r : Registry m} {inquiry : Inquiry} {a : Reply} (hread : r.reply f inquiry = some a) :
    r.reply g inquiry = some a := by
  rw [reply_eq] at hread ⊢
  rcases Option.map_eq_some_iff.1 hread with ⟨answers, hanswers, hconclude⟩
  exact Option.map_eq_some_iff.2 ⟨answers, Slot.realizeInOrder_mono h hanswers, hconclude⟩

theorem exists_reply (r : Registry (StateM σ)) (inquiry : Inquiry) {cache : Cache} {runs : RunLog}
    (h : InStep cache runs) (world : σ) :
    ∃ a cache' runs' world',
      ComesTo (r.reply Slot.realizeOnceLogged inquiry) (r.reply Slot.realizeOnce inquiry) cache runs
        world a cache' runs' world' ∧
      InStep cache' runs' ∧
      Grows (r.Needs runs' inquiry) runs runs' ∧
      r.reply runs'.answer? inquiry = some a := by
  rcases exists_realizeInOrder (r.slotsFor inquiry) h world with
    ⟨answers, cache', runs', world', hcomes, hstep, hgrows, hread⟩
  refine ⟨r.conclude inquiry answers, cache', runs', world', ?_, hstep, hgrows, ?_⟩
  · rw [reply_eq, reply_eq]
    exact hcomes.map (r.conclude inquiry)
  · rw [reply_eq, hread]
    rfl

/-- However many inquiries are made: the replies are those that the log gives. -/
theorem exists_replies (r : Registry (StateM σ)) (inquiries : List Inquiry) {cache : Cache}
    {runs : RunLog} (h : InStep cache runs) (world : σ) :
    ∃ replies cache' runs' world',
      ComesTo (r.replies Slot.realizeOnceLogged inquiries) (r.replies Slot.realizeOnce inquiries)
        cache runs world replies cache' runs' world' ∧
      InStep cache' runs' ∧
      Grows (fun category slot => ∃ inquiry ∈ inquiries, r.Needs runs' inquiry category slot) runs
        runs' ∧
      r.replies runs'.answer? inquiries = some replies := by
  induction inquiries generalizing cache runs world with
  | nil => exact ⟨[], cache, runs, world, .pure _ _ _ _, h, .refl _ runs, rfl⟩
  | cons inquiry rest ih =>
    rcases r.exists_reply inquiry h world with
      ⟨a, cache₁, runs₁, world₁, hfirst, hstep₁, hgrows₁, hread₁⟩
    rcases ih hstep₁ world₁ with
      ⟨replies, cache₂, runs₂, world₂, hothers, hstep₂, hgrows₂, hread₂⟩
    refine ⟨a :: replies, cache₂, runs₂, world₂, hfirst.bind (hothers.bind (.pure _ _ _ _)), hstep₂,
      ?_, ?_⟩
    · refine hgrows₁.trans hgrows₂ ?_ ?_
      · -- what was reached with the earlier log is reached with the later one
        intro category slot hneeds
        exact ⟨inquiry, List.mem_cons_self, hneeds.mono hgrows₂.kept⟩
      · rintro category slot ⟨other, hother, hneeds⟩
        exact ⟨other, List.mem_cons_of_mem _ hother, hneeds⟩
    · have hsame := RunLog.answer?_mono (m := StateM σ) hgrows₂.kept hstep₁.once hstep₂.once
      have hread₁ : r.reply runs₂.answer? inquiry = some a := reply_mono hsame hread₁
      exact Option.bind_eq_some_iff.2
        ⟨a, hread₁, Option.bind_eq_some_iff.2 ⟨replies, hread₂, rfl⟩⟩

/-! ### Reading the replies off the log -/

/-- Each inquiry has the reply that it has by itself. -/
theorem exists_reply_of_replies {f : Realization m Option} {r : Registry m}
    {inquiries : List Inquiry} {replies : List Reply} (hread : r.replies f inquiries = some replies)
    {p : Nat} {inquiry : Inquiry} (hp : inquiries[p]? = some inquiry) :
    ∃ a, r.reply f inquiry = some a ∧ replies[p]? = some a := by
  induction inquiries generalizing replies p with
  | nil => cases hp
  | cons first rest ih =>
    rcases Option.bind_eq_some_iff.1 hread with ⟨a, hfirst, hrest⟩
    rcases Option.bind_eq_some_iff.1 hrest with ⟨others, hothers, hall⟩
    cases hall
    cases p with
    | zero =>
      cases hp
      exact ⟨a, hfirst, rfl⟩
    | succ p => exact ih hothers hp

/-- A slot that is reached has its outcome in the log. -/
theorem exists_answer_of_reached {runs : RunLog} (h : (runs.map ProducerRun.slotKey).Nodup)
    {slots : List (Category × Slot m)} {answers : List (Option Artifact)}
    (hread : Slot.realizeInOrder runs.answer? slots = some answers) {category : Category}
    {slot : Slot m} (hreached : Reached runs slots category slot) :
    ∃ answer, ⟨category, slot.identifier, answer⟩ ∈ runs := by
  rcases hreached with ⟨before, after, rfl, hbefore⟩
  induction before generalizing answers with
  | nil =>
    rcases Option.bind_eq_some_iff.1 hread with ⟨answer, hanswer, -⟩
    exact ⟨answer, (RunLog.answer?_eq_some_iff h).1 hanswer⟩
  | cons e before ih =>
    rcases e with ⟨c, s⟩
    rcases hbefore (c, s) List.mem_cons_self with ⟨a, ha⟩
    -- the slot before has an artifact, so the walk goes on behind it
    have hfirst : runs.answer? c s = some (some a) := (RunLog.answer?_eq_some_iff h).2 ha
    rcases Option.bind_eq_some_iff.1 hread with ⟨answer, hanswer, hrest⟩
    rw [hfirst] at hanswer
    cases hanswer
    rcases Option.bind_eq_some_iff.1 hrest with ⟨others, hothers, -⟩
    exact ih (fun e he => hbefore e (List.mem_cons_of_mem _ he)) hothers

/-! ### The law -/

/-- What the log says about the replies to inquiries. -/
structure RealizesOnce (r : Registry (StateM σ)) (inquiries : List Inquiry) (replies : List Reply)
    (runs : RunLog) : Prop where
  /-- No slot is in the log twice. -/
  once : (runs.map ProducerRun.slotKey).Nodup
  /-- A producer only runs if some inquiry comes down to its slot, -/
  asked : ∀ run ∈ runs, ∃ inquiry ∈ inquiries, ∃ slot, r.Needs runs inquiry run.category slot ∧
    slot.identifier = run.identifier ∧ slot.producer.Gives run.answer
  /-- and then it does run. -/
  ran : ∀ inquiry ∈ inquiries, ∀ category slot, r.Needs runs inquiry category slot →
    ∃ answer, ⟨category, slot.identifier, answer⟩ ∈ runs
  /-- Whoever comes to a slot by a key gets the outcome of its run. -/
  lookup : ∀ (p : Nat) category key slot, inquiries[p]? = some (.lookup category key) →
    (r.index category).resolve? key = some slot →
    ∃ answer, ⟨category, slot.identifier, answer⟩ ∈ runs ∧ replies[p]? = some (.artifact answer)
  /-- The same holds for other registries. -/
  find : ∀ (p : Nat) category identifier slot, inquiries[p]? = some (.find category identifier) →
    (r.index category).find? identifier = some slot →
    ∃ answer, ⟨category, slot.identifier, answer⟩ ∈ runs ∧ replies[p]? = some (.artifact answer)
  /-- Whoever asks for everything gets the number of outcomes, or the first slot whose outcome is that there
  is no artifact. -/
  materialize : ∀ p : Nat, inquiries[p]? = some .materialize →
    ∃ answers, Slot.realizeInOrder runs.answer? (r.slotsFor .materialize) = some answers ∧
      replies[p]? = some (.total (Slot.tally (r.slotsFor .materialize) answers))
  /-- In all, the replies are those of a registry whose slots are realized by looking into the log. -/
  read : r.replies runs.answer? inquiries = some replies

/-- In whatever world inquiries are made of a registry nothing of which has been realized. -/
theorem exists_realizesOnce (r : Registry (StateM σ)) (inquiries : List Inquiry) (world : σ) :
    ∃ replies cache runs world',
      ComesTo (r.replies Slot.realizeOnceLogged inquiries) (r.replies Slot.realizeOnce inquiries)
        {} [] world replies cache runs world' ∧
      r.RealizesOnce inquiries replies runs := by
  rcases r.exists_replies inquiries inStep_nil world with
    ⟨replies, cache, runs, world', hcomes, hstep, hgrows, hread⟩
  refine ⟨replies, cache, runs, world', hcomes, ?_⟩
  -- asking for one artifact is reading the outcome of one run
  have hone : ∀ {category : Category} {slot : Slot (StateM σ)} {p : Nat} {inquiry : Inquiry},
      inquiries[p]? = some inquiry →
      r.reply runs.answer? inquiry = Reply.artifact <$> runs.answer? category slot →
      ∃ answer, ⟨category, slot.identifier, answer⟩ ∈ runs ∧
        replies[p]? = some (.artifact answer) := by
    intro category slot p inquiry hp hreply
    rcases exists_reply_of_replies hread hp with ⟨a, ha, hget⟩
    rw [hreply] at ha
    rcases Option.map_eq_some_iff.1 ha with ⟨answer, hanswer, rfl⟩
    exact ⟨answer, (RunLog.answer?_eq_some_iff hstep.once).1 hanswer, hget⟩
  constructor
  case once =>
    exact hstep.once
  case asked =>
    intro run hrun
    rcases hgrows.fresh run hrun with hnone | ⟨slot, ⟨inquiry, hinquiry, hneeds⟩, hidentifier, hgives⟩
    · cases hnone
    · exact ⟨inquiry, hinquiry, slot, hneeds, hidentifier, hgives⟩
  case ran =>
    intro inquiry hinquiry category slot hneeds
    rcases List.getElem?_of_mem hinquiry with ⟨p, hp⟩
    rcases exists_reply_of_replies hread hp with ⟨a, ha, -⟩
    rw [reply_eq] at ha
    rcases Option.map_eq_some_iff.1 ha with ⟨answers, hanswers, -⟩
    exact exists_answer_of_reached hstep.once hanswers hneeds
  case lookup =>
    intro p category key slot hp hslot
    exact hone hp (reply_lookup hslot)
  case find =>
    intro p category identifier slot hp hslot
    exact hone hp (reply_find hslot)
  case materialize =>
    intro p hp
    rcases exists_reply_of_replies hread hp with ⟨a, ha, hget⟩
    rw [reply_eq] at ha
    rcases Option.map_eq_some_iff.1 ha with ⟨answers, hanswers, rfl⟩
    exact ⟨answers, hanswers, hget⟩
  case read =>
    exact hread

end Registry

/-! ## Steady producers -/

/-- The answer of the producer does not depend on the world. -/
def Producer.Steady (p : Producer (StateM σ)) : Prop :=
  ∀ world world', (p.realize.run world).1 = (p.realize.run world').1

theorem Producer.Steady.run_eq {p : Producer (StateM σ)} (h : p.Steady) {answer : Option Artifact}
    (hgives : p.Gives answer) (world : σ) : (p.realize.run world).1 = answer := by
  rcases hgives with ⟨world', rfl⟩
  exact h world world'

/-- If the answers that are read are those of the producers in every world, realizing anew gives them
too. -/
theorem Slot.realizeInOrder_anew {f : Realization (StateM σ) Option}
    {slots : List (Category × Slot (StateM σ))} {answers : List (Option Artifact)}
    (hread : Slot.realizeInOrder f slots = some answers)
    (h : ∀ e ∈ slots, ∀ answer, f e.1 e.2 = some answer →
      ∀ world, (e.2.producer.realize.run world).1 = answer) (world : σ) :
    ((Slot.realizeInOrder Slot.realize slots).run world).1 = answers := by
  induction slots generalizing answers world with
  | nil =>
    cases hread
    rfl
  | cons e rest ih =>
    rcases e with ⟨category, slot⟩
    rcases Option.bind_eq_some_iff.1 hread with ⟨answer, hanswer, hrest⟩
    have hfirst : (slot.producer.realize.run world).1 = answer :=
      h (category, slot) List.mem_cons_self answer hanswer world
    cases hrun : slot.producer.realize.run world with
    | mk given world' =>
      obtain rfl : given = answer := by rwa [hrun] at hfirst
      rw [Slot.realizeInOrder, StateT.run_bind, Slot.realize, hrun]
      cases given with
      | none =>
        cases hrest
        rfl
      | some a =>
        rcases Option.bind_eq_some_iff.1 hrest with ⟨others, hothers, hall⟩
        cases hall
        have hothers' := ih hothers (fun e he => h e (List.mem_cons_of_mem _ he)) world'
        exact congrArg (some a :: ·) hothers'

namespace Registry

/-- No answer depends on the world. -/
def Steady (r : Registry (StateM σ)) : Prop :=
  ∀ category, ∀ slot ∈ (r.index category).slots, slot.producer.Steady

theorem nodup_identifiers_ofDefinitions (builtinSource : String) (ds : List (Definition m))
    (diagnostics : List Diagnostic) (category : Category) :
    ((ofDefinitions builtinSource ds diagnostics).identifiers category).Nodup := by
  rw [identifiers, ofDefinitions_holds builtinSource ds diagnostics category,
    Index.identifiers_ofRegistered]
  exact (Definition.compatible_accepted ds).nodup_identifiers category

/-- A registry is steady if its definitions are built and imported steadily. -/
theorem steady_ofDefinitions {ds : List (Definition (StateM σ))}
    (h : ∀ d ∈ ds, (Producer.ofDefinition d).Steady) (builtinSource : String)
    (diagnostics : List Diagnostic) : (ofDefinitions builtinSource ds diagnostics).Steady := by
  intro category slot hslot
  rw [(ofDefinitions_holds builtinSource ds diagnostics).slots category] at hslot
  rcases List.mem_map.1 hslot with ⟨d, hd, rfl⟩
  exact h d (Definition.mem_of_mem_accepted (List.mem_of_mem_filter hd))

section Reading

variable {r : Registry (StateM σ)} {inquiries : List Inquiry} {replies : List Reply} {runs : RunLog}

/-- Where identifiers are distinct, what the log says for a slot was given by the producer of this very
slot. -/
theorem RealizesOnce.gives (h : r.RealizesOnce inquiries replies runs) {category : Category}
    (hdistinct : (r.identifiers category).Nodup) {slot : Slot (StateM σ)}
    (hslot : slot ∈ (r.index category).slots) {answer : Option Artifact}
    (hrun : ⟨category, slot.identifier, answer⟩ ∈ runs) : slot.producer.Gives answer := by
  rcases h.asked _ hrun with ⟨inquiry, -, other, hneeds, hidentifier, hgives⟩
  have hother := hneeds.mem_slots
  rwa [List.inj_on_of_nodup_map hdistinct hslot hother hidentifier.symm]

/-- With steady producers, a reply that is read off the log is the one that the registry has in any
world if it realizes everything anew. -/
theorem RealizesOnce.reply_anew (h : r.RealizesOnce inquiries replies runs)
    (hdistinct : ∀ category, (r.identifiers category).Nodup) (hsteady : r.Steady)
    {inquiry : Inquiry} {a : Reply} (hread : r.reply runs.answer? inquiry = some a) (world : σ) :
    ((r.reply Slot.realize inquiry).run world).1 = a := by
  rw [reply_eq] at hread ⊢
  rcases Option.map_eq_some_iff.1 hread with ⟨answers, hanswers, rfl⟩
  have hanew : ((Slot.realizeInOrder Slot.realize (r.slotsFor inquiry)).run world).1 = answers := by
    refine Slot.realizeInOrder_anew hanswers ?_ world
    rintro ⟨category, slot⟩ hmem answer hanswer world'
    have hslot := mem_slots_of_mem_slotsFor hmem
    have hrun := (RunLog.answer?_eq_some_iff h.once).1 hanswer
    exact (hsteady category slot hslot).run_eq (h.gives (hdistinct category) hslot hrun) world'
  rw [← hanew]
  rfl

/-- With steady producers, realizing everything anew the reply does not depend on the world. -/
theorem Steady.reply_eq_reply (hsteady : r.Steady)
    (hdistinct : ∀ category, (r.identifiers category).Nodup) (inquiry : Inquiry) (world world' : σ) :
    ((r.reply Slot.realize inquiry).run world).1 = ((r.reply Slot.realize inquiry).run world').1 := by
  rcases r.exists_realizesOnce [inquiry] world with ⟨replies, cache, runs, world₁, -, h⟩
  rcases exists_reply_of_replies (p := 0) h.read rfl with ⟨a, ha, -⟩
  rw [h.reply_anew hdistinct hsteady ha world, h.reply_anew hdistinct hsteady ha world']

/-- Replies that are the same whoever is asked before are those to the single inquiries. -/
theorem replies_anew {reply : Inquiry → Reply}
    (h : ∀ inquiry world, ((r.reply Slot.realize inquiry).run world).1 = reply inquiry)
    (inquiries : List Inquiry) (world : σ) :
    ((r.replies Slot.realize inquiries).run world).1 = inquiries.map reply := by
  induction inquiries generalizing world with
  | nil => rfl
  | cons inquiry rest ih =>
    have hstep : ((r.replies Slot.realize (inquiry :: rest)).run world).1 =
        ((r.reply Slot.realize inquiry).run world).1 ::
          ((r.replies Slot.realize rest).run
            ((r.reply Slot.realize inquiry).run world).2).1 := rfl
    rw [hstep, h, ih, List.map_cons]

theorem eq_map_of_replies {f : Realization m Option} {r : Registry m} {inquiries : List Inquiry}
    {replies : List Reply} (hread : r.replies f inquiries = some replies) {reply : Inquiry → Reply}
    (h : ∀ inquiry a, r.reply f inquiry = some a → a = reply inquiry) :
    replies = inquiries.map reply := by
  induction inquiries generalizing replies with
  | nil =>
    cases hread
    rfl
  | cons inquiry rest ih =>
    rcases Option.bind_eq_some_iff.1 hread with ⟨a, hfirst, hrest⟩
    rcases Option.bind_eq_some_iff.1 hrest with ⟨others, hothers, hall⟩
    cases hall
    rw [h inquiry a hfirst, ih hothers, List.map_cons]

end Reading

/-- With steady producers there is one reply to each inquiry, with or without a cache. -/
theorem Steady.exists_reply {r : Registry (StateM σ)} (hsteady : r.Steady)
    (hdistinct : ∀ category, (r.identifiers category).Nodup) :
    ∃ reply : Inquiry → Reply, ∀ inquiries world,
      (((r.replies Slot.realizeOnce inquiries).run {}).run world).1.1 = inquiries.map reply ∧
        ((r.replies Slot.realize inquiries).run world).1 = inquiries.map reply := by
  by_cases hworld : Nonempty σ
  · rcases hworld with ⟨origin⟩
    refine ⟨fun inquiry => ((r.reply Slot.realize inquiry).run origin).1, ?_⟩
    intro inquiries world
    constructor
    · -- all replies are read off one log, and each is the one that is given anew
      rcases r.exists_realizesOnce inquiries world with ⟨replies, cache, runs, world', hcomes, h⟩
      rw [hcomes.plain]
      refine eq_map_of_replies h.read ?_
      intro inquiry a ha
      exact (h.reply_anew hdistinct hsteady ha origin).symm
    · exact replies_anew (fun inquiry world' =>
        hsteady.reply_eq_reply hdistinct inquiry world' origin) inquiries world
  · exact ⟨fun _ => .artifact none, fun _ world => absurd ⟨world⟩ hworld⟩

end Registry

open Registry (ofDefinitions)

/-- Let any inquiries be made of a registry, one after the other, and any state change hands on the way.
No producer runs twice. It runs if and only if an inquiry comes down to its slot, and whoever comes to
this slot gets the outcome of that run, be it that there is no artifact. If no answer of a producer
depends on the state, every inquiry has a reply of its own, whatever has been asked for before, and a
registry that realizes everything anew replies the same. -/
theorem slots_are_realized_once (builtinSource : String) (diagnostics : List Diagnostic)
    (ds : List (Definition (StateM σ))) :
    let r := ofDefinitions builtinSource ds diagnostics
    (∀ category, (r.identifiers category).Nodup) ∧
      (∀ inquiries world, ∃ replies cache runs world',
        ComesTo (r.replies Slot.realizeOnceLogged inquiries)
          (r.replies Slot.realizeOnce inquiries) {} [] world replies cache runs world' ∧
        r.RealizesOnce inquiries replies runs) ∧
      (r.Steady → ∃ reply : Inquiry → Reply, ∀ inquiries world,
        (((r.replies Slot.realizeOnce inquiries).run {}).run world).1.1 = inquiries.map reply ∧
          ((r.replies Slot.realize inquiries).run world).1 = inquiries.map reply) := by
  intro r
  have hdistinct := Registry.nodup_identifiers_ofDefinitions builtinSource ds diagnostics
  refine ⟨hdistinct, r.exists_realizesOnce, ?_⟩
  intro hsteady
  exact hsteady.exists_reply hdistinct

/-- A type whose builder counts how often it is run, and an import from a source that has nothing and
counts how often it is asked. -/
def counted : List (Definition (StateM Nat)) :=
  let builder : Builder (StateM Nat) := fun declaration => do
    modify (· + 1)
    return .ofDeclaration declaration
  let source : Source (StateM Nat) := ⟨"nowhere", fun _ _ => do
    modify (· + 1)
    return none⟩
  [{ category := .type, identifier := "user", name := "User", origin := .built builder },
    { category := .type, identifier := "ghost", name := "Ghost", origin := .imported source }]

/-- To count is not to change an answer, so with a cache the replies are the same as without. But then five
inquiries make two runs. -/
theorem counted_replies :
    (ofDefinitions "builtins" counted []).Steady ∧
      (∃ reply : Inquiry → Reply, ∀ inquiries world,
        ((((ofDefinitions "builtins" counted []).replies Slot.realizeOnce inquiries).run {}).run
            world).1.1 = inquiries.map reply ∧
          (((ofDefinitions "builtins" counted []).replies Slot.realize inquiries).run world).1 =
            inquiries.map reply) ∧
      ((((ofDefinitions "builtins" counted []).replies Slot.realizeOnce
        [.find .type "ghost", .materialize, .lookup .type "User", .lookup .type "Ghost",
          .materialize]).run {}).run 0).2 = 2 := by
  have hsteady : (ofDefinitions "builtins" counted []).Steady := by
    refine Registry.steady_ofDefinitions ?_ "builtins" []
    simp only [counted, List.forall_mem_cons]
    exact ⟨fun _ _ => rfl, fun _ _ => rfl, by simp⟩
  exact ⟨hsteady, (slots_are_realized_once "builtins" [] counted).2.2 hsteady, rfl⟩

end SchemaRegistry
