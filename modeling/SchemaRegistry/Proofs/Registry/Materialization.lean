import Mathlib.Data.Nat.Find
import SchemaRegistry.Proofs.Registry.Lookup
import SchemaRegistry.Proofs.Registry.Realization

/-!
# Materialization

Whoever asks for everything gets the number of artifacts, unless an import is missing. Then the first one
is named, in the order types before directives and within a category in the order of registration
(`Registry.MaterializeLaw`). Only imports can be missing, and only registered ones: what is built has an
artifact, and what lost a conflict has no slot.

Slots are realized once, so by the time everything is asked for, some answers may be old. Whatever the
history of a registry is, there is one answer for each slot that was given by its producer (`answersFrom`),
and it is as if all slots had been realized with these answers.
-/

namespace SchemaRegistry

variable {m : Type → Type} {σ : Type}

namespace Registry

/-! ## Materialization with given answers -/

/-- Realizes slots by the answers for their identifiers. -/
def answering (answer : Category → String → Option Artifact) : Realization m Option :=
  fun category slot => some (answer category slot.identifier)

section Answering

variable {answer : Category → String → Option Artifact} {category : Category}
  {slots before after : List (Slot m)} {slot : Slot m}

theorem materializeSlots_of_present
    (h : ∀ slot ∈ slots, (answer category slot.identifier).isSome = true) :
    materializeSlots (answering answer) category slots = some (.ok slots.length) := by
  induction slots with
  | nil => rfl
  | cons slot rest ih =>
    rcases Option.isSome_iff_exists.1 (h slot List.mem_cons_self) with ⟨a, ha⟩
    have hrest := ih fun other hother => h other (List.mem_cons_of_mem _ hother)
    simp only [materializeSlots, answering] at hrest ⊢
    simp [ha, hrest, Except.map]

theorem materializeSlots_of_absent
    (hbefore : ∀ slot ∈ before, (answer category slot.identifier).isSome = true)
    (hslot : answer category slot.identifier = none) :
    materializeSlots (answering answer) category (before ++ slot :: after) =
      some (.error ⟨category, slot.identifier, slot.producer.sourceName?.getD ""⟩) := by
  induction before with
  | nil => simp [materializeSlots, answering, hslot]
  | cons first before ih =>
    rcases Option.isSome_iff_exists.1 (hbefore first List.mem_cons_self) with ⟨a, ha⟩
    have hrest := ih fun other hother => hbefore other (List.mem_cons_of_mem _ hother)
    simp only [materializeSlots, answering, List.cons_append] at hrest ⊢
    simp [ha, hrest, Except.map]

theorem materialize_of_present {r : Registry m}
    (h : ∀ category, ∀ slot ∈ (r.index category).slots,
      (answer category slot.identifier).isSome = true) :
    r.materialize (answering answer) =
      some (.ok ((r.index .type).slots.length + (r.index .directive).slots.length)) := by
  have htypes := materializeSlots_of_present (h .type)
  have hdirectives := materializeSlots_of_present (h .directive)
  simp only [index] at htypes hdirectives
  simp [materialize, htypes, hdirectives, index, Except.map]

/-- No directive is realized before all types are. -/
theorem materialize_of_absent {r : Registry m}
    (htypes : category = .directive → ∀ slot ∈ (r.index .type).slots,
      (answer .type slot.identifier).isSome = true)
    (hslots : (r.index category).slots = before ++ slot :: after)
    (hbefore : ∀ slot ∈ before, (answer category slot.identifier).isSome = true)
    (hslot : answer category slot.identifier = none) :
    r.materialize (answering answer) =
      some (.error ⟨category, slot.identifier, slot.producer.sourceName?.getD ""⟩) := by
  have habsent : materializeSlots (answering answer) category (r.index category).slots =
      some (.error ⟨category, slot.identifier, slot.producer.sourceName?.getD ""⟩) := by
    rw [hslots]
    exact materializeSlots_of_absent hbefore hslot
  cases category with
  | type =>
    simp only [index] at habsent
    simp [materialize, habsent]
  | directive =>
    have hpresent := materializeSlots_of_present (htypes rfl)
    simp only [index] at habsent hpresent
    simp [materialize, habsent, hpresent, Except.map]

end Answering

/-! ## The law -/

section Missing

variable (registered : Nat → Definition m → Prop) (present : Definition m → Source m → Prop)

/-- The definition at position `p` is registered and imported, and its source has nothing for it. -/
structure MissingAt (p : Nat) (d : Definition m) (s : Source m) : Prop where
  here : registered p d
  imported : d.origin = .imported s
  absent : ¬ present d s

/-- No other missing import comes first: types come before directives, and in a category what was
registered earlier comes first. -/
structure FirstMissing (p : Nat) (d : Definition m) (s : Source m) : Prop
    extends MissingAt registered present p d s where
  first : ∀ q e t, MissingAt registered present q e t →
    d.category = e.category ∧ p ≤ q ∨ d.category = .type ∧ e.category = .directive

/-- What it comes to if all artifacts are asked for, where `registered p d` says that the definition `d` at
position `p` is registered, and `present d s` that the source `s` has an artifact for it. -/
structure MaterializeLaw (r : Registry m) (outcome : Except MissingImport Nat) : Prop where
  /-- All goes well if and only if every registered import is there, and then there is an artifact for every
  identifier of both categories. -/
  ok : ∀ count, outcome = .ok count ↔
    (∀ p d s, registered p d → d.origin = .imported s → present d s) ∧
      count = r.types.names.size + r.directives.names.size
  /-- Otherwise the first missing import is named. -/
  error : ∀ missing, outcome = .error missing ↔
    ∃ p d s, FirstMissing registered present p d s ∧
      missing = ⟨d.category, d.identifier, s.name⟩

variable {registered present}

/-- Where an import of a category is missing, there is one that was registered before the others. -/
theorem exists_leastMissing {category : Category}
    (h : ∃ p d s, MissingAt registered present p d s ∧ d.category = category) :
    ∃ p d s, MissingAt registered present p d s ∧ d.category = category ∧
      ∀ q e t, MissingAt registered present q e t → e.category = category → p ≤ q := by
  classical
  rcases Nat.find_spec h with ⟨d, s, hmissing, hcategory⟩
  refine ⟨Nat.find h, d, s, hmissing, hcategory, ?_⟩
  intro q e t he hsame
  exact Nat.find_min' h ⟨e, t, he, hsame⟩

/-- Where an import is missing there is a first one. -/
theorem exists_firstMissing {p : Nat} {d : Definition m} {s : Source m}
    (h : MissingAt registered present p d s) :
    ∃ p d s, FirstMissing registered present p d s := by
  by_cases htype : ∃ p d s, MissingAt registered present p d s ∧ d.category = .type
  · rcases exists_leastMissing htype with ⟨p, d, s, hmissing, hcategory, hleast⟩
    refine ⟨p, d, s, hmissing, ?_⟩
    intro q e t he
    cases hother : e.category with
    | type => exact .inl ⟨hcategory, hleast q e t he hother⟩
    | directive => exact .inr ⟨hcategory, rfl⟩
  · -- then only directives are missing
    have hdirective : ∀ q e t, MissingAt registered present q e t → e.category = .directive := by
      intro q e t he
      cases hother : e.category with
      | type => exact absurd ⟨q, e, t, he, hother⟩ htype
      | directive => rfl
    rcases exists_leastMissing ⟨p, d, s, h, hdirective p d s h⟩ with
      ⟨p, d, s, hmissing, hcategory, hleast⟩
    refine ⟨p, d, s, hmissing, ?_⟩
    intro q e t he
    have hother := hdirective q e t he
    exact .inl ⟨hcategory.trans hother.symm, hleast q e t he hother⟩

/-- It is enough to know the outcome where nothing is missing, and where something is the first. -/
theorem MaterializeLaw.of_outcome {r : Registry m} {outcome : Except MissingImport Nat}
    (hnone : (∀ p d s, ¬ MissingAt registered present p d s) →
      outcome = .ok (r.types.names.size + r.directives.names.size))
    (hfirst : ∀ p d s, FirstMissing registered present p d s →
      outcome = .error ⟨d.category, d.identifier, s.name⟩) :
    MaterializeLaw registered present r outcome := by
  constructor
  case ok =>
    intro count
    constructor
    · intro hok
      have hpresent : ∀ p d s, ¬ MissingAt registered present p d s := by
        intro p d s hd
        rcases exists_firstMissing hd with ⟨p, d, s, hd⟩
        rw [hfirst p d s hd] at hok
        cases hok
      rw [hnone hpresent] at hok
      cases hok
      refine ⟨?_, rfl⟩
      intro p d s hd horigin
      by_contra habsent
      exact hpresent p d s ⟨hd, horigin, habsent⟩
    · rintro ⟨hpresent, rfl⟩
      exact hnone fun p d s hd => hd.absent (hpresent p d s hd.here hd.imported)
  case error =>
    intro missing
    constructor
    · intro herror
      by_cases hexists : ∃ p d s, MissingAt registered present p d s
      · rcases hexists with ⟨p, d, s, hd⟩
        rcases exists_firstMissing hd with ⟨p, d, s, hd⟩
        rw [hfirst p d s hd] at herror
        cases herror
        exact ⟨p, d, s, hd, rfl⟩
      · rw [hnone fun p d s hd => hexists ⟨p, d, s, hd⟩] at herror
        cases herror
    · rintro ⟨p, d, s, hd, rfl⟩
      exact hfirst p d s hd

end Missing

/-! ## The law holds of answers that were given -/

/-- In the answers what is built has an artifact, and what is imported has one exactly if it is there. -/
structure Fits (registered : Nat → Definition m → Prop) (present : Definition m → Source m → Prop)
    (answer : Category → String → Option Artifact) : Prop where
  built : ∀ p d builder, registered p d → d.origin = .built builder →
    (answer d.category d.identifier).isSome = true
  imported : ∀ p d s, registered p d → d.origin = .imported s →
    (present d s ↔ (answer d.category d.identifier).isSome = true)

/-- So only missing imports have none. -/
theorem Fits.isSome {registered : Nat → Definition m → Prop}
    {present : Definition m → Source m → Prop} {answer : Category → String → Option Artifact}
    (h : Fits registered present answer) {p : Nat} {d : Definition m} (hd : registered p d)
    (hpresent : ∀ s, ¬ MissingAt registered present p d s) :
    (answer d.category d.identifier).isSome = true := by
  cases horigin : d.origin with
  | built builder => exact h.built p d builder hd horigin
  | imported s =>
    -- it would be missing otherwise
    by_contra habsent
    exact hpresent s ⟨hd, horigin, (not_congr (h.imported p d s hd horigin)).2 habsent⟩

section Law

variable {builtinSource : String} {diagnostics : List Diagnostic} {ds : List (Definition m)}
  {present : Definition m → Source m → Prop} {answer : Category → String → Option Artifact}

theorem size_names_eq_length_slots (builtinSource : String) (ds : List (Definition m))
    (diagnostics : List Diagnostic) (category : Category) :
    ((ofDefinitions builtinSource ds diagnostics).index category).names.size =
      ((ofDefinitions builtinSource ds diagnostics).index category).slots.length := by
  rw [ofDefinitions_holds builtinSource ds diagnostics category,
    Index.size_names_ofRegistered
      ((Definition.compatible_accepted ds).nodup_identifiers category),
    Index.slots_ofRegistered, List.length_map]

/-- Around the slot of a registered definition: whatever is registered in the category before its turn has
a slot before it. -/
theorem RegisteredAt.exists_slots {p : Nat} {d : Definition m}
    (h : RegisteredAt builtinSource diagnostics ds p d) :
    ∃ before after, ((ofDefinitions builtinSource ds diagnostics).index d.category).slots =
        before ++ Slot.ofDefinition d :: after ∧
      ∀ slot ∈ before, ∃ q < p, ∃ e, RegisteredAt builtinSource diagnostics ds q e ∧
        e.category = d.category ∧ slot = Slot.ofDefinition e := by
  rcases (registeredAt_iff.1 h).exists_after with ⟨after, hafter⟩
  refine ⟨((Definition.accepted (ds.take p)).filter (·.category = d.category)).map
    Slot.ofDefinition, (after.filter (·.category = d.category)).map Slot.ofDefinition, ?_, ?_⟩
  · rw [(ofDefinitions_holds builtinSource ds diagnostics).slots d.category, hafter,
      List.filter_append, List.filter_cons_of_pos (by simp), List.map_append, List.map_cons]
  · intro slot hslot
    rcases List.mem_map.1 hslot with ⟨e, he, rfl⟩
    rcases List.mem_filter.1 he with ⟨hbefore, hcategory⟩
    rcases Definition.mem_accepted_take_iff.1 hbefore with ⟨q, hlt, hq⟩
    exact ⟨q, hlt, e, registeredAt_iff.2 hq, by simpa using hcategory, rfl⟩

theorem materialize_of_fits_of_none
    (h : Fits (RegisteredAt builtinSource diagnostics ds) present answer)
    (hpresent : ∀ p d s, ¬ MissingAt (RegisteredAt builtinSource diagnostics ds) present p d s) :
    (ofDefinitions builtinSource ds diagnostics).materialize (answering answer) =
      some (.ok ((ofDefinitions builtinSource ds diagnostics).types.names.size +
        (ofDefinitions builtinSource ds diagnostics).directives.names.size)) := by
  have hall : ∀ category,
      ∀ slot ∈ ((ofDefinitions builtinSource ds diagnostics).index category).slots,
        (answer category slot.identifier).isSome = true := by
    intro category slot hslot
    rcases mem_slots_iff.1 hslot with ⟨p, d, ⟨hd, rfl⟩, rfl⟩
    exact h.isSome hd (hpresent p d)
  rw [materialize_of_present hall, ← size_names_eq_length_slots, ← size_names_eq_length_slots]
  rfl

theorem materialize_of_fits_of_first
    (h : Fits (RegisteredAt builtinSource diagnostics ds) present answer) {p : Nat}
    {d : Definition m} {s : Source m}
    (hmissing : FirstMissing (RegisteredAt builtinSource diagnostics ds) present p d s) :
    (ofDefinitions builtinSource ds diagnostics).materialize (answering answer) =
      some (.error ⟨d.category, d.identifier, s.name⟩) := by
  rcases hmissing with ⟨⟨hd, horigin, habsent⟩, hfirst⟩
  have hhere : answer d.category d.identifier = none := by
    rw [h.imported p d s hd horigin] at habsent
    simpa using habsent
  have hname : (Slot.ofDefinition d).producer.sourceName?.getD "" = s.name := by
    simp [Slot.ofDefinition, Producer.ofDefinition, horigin, Producer.sourceName?]
  have htypes : d.category = .directive →
      ∀ slot ∈ ((ofDefinitions builtinSource ds diagnostics).index .type).slots,
        (answer .type slot.identifier).isSome = true := by
    -- a type that is missing would come first
    intro hdirective slot hslot
    rcases mem_slots_iff.1 hslot with ⟨q, e, ⟨he, hcategory⟩, rfl⟩
    rw [← hcategory]
    refine h.isSome he ?_
    intro t ht
    rcases hfirst q e t ht with ⟨hsame, -⟩ | ⟨htype, -⟩
    · rw [hdirective, hcategory] at hsame
      cases hsame
    · rw [hdirective] at htype
      cases htype
  rcases hd.exists_slots with ⟨before, after, hslots, hearlier⟩
  have hbefore : ∀ slot ∈ before, (answer d.category slot.identifier).isSome = true := by
    -- so would one that was registered before
    intro slot hslot
    rcases hearlier slot hslot with ⟨q, hlt, e, he, hcategory, rfl⟩
    rw [← hcategory]
    refine h.isSome he ?_
    intro t ht
    rcases hfirst q e t ht with ⟨-, hle⟩ | ⟨htype, hdirective⟩
    · omega
    · rw [htype, hdirective] at hcategory
      cases hcategory
  rw [materialize_of_absent htypes hslots hbefore hhere, hname]
  rfl

/-- To materialize with answers that fit obeys the law. -/
theorem Fits.materializeLaw
    (h : Fits (RegisteredAt builtinSource diagnostics ds) present answer)
    {outcome : Except MissingImport Nat}
    (hread : (ofDefinitions builtinSource ds diagnostics).materialize (answering answer) =
      some outcome) :
    MaterializeLaw (RegisteredAt builtinSource diagnostics ds) present
      (ofDefinitions builtinSource ds diagnostics) outcome := by
  refine .of_outcome ?_ ?_
  · intro hnone
    rw [materialize_of_fits_of_none h hnone] at hread
    exact (Option.some.inj hread).symm
  · intro p d s hfirst
    rw [materialize_of_fits_of_first h hfirst] at hread
    exact (Option.some.inj hread).symm

end Law

/-! ## Answers from a log -/

/-- What the log says, and for slots that are not in the log what their producer gives in this world. -/
def answersFrom (r : Registry (StateM σ)) (runs : RunLog) (world : σ) (category : Category)
    (identifier : String) : Option Artifact :=
  ((runs.find? (·.slotKey == (category, identifier))).map (·.answer)).getD <|
    ((r.index category).slots.find? (·.identifier == identifier)).bind fun slot =>
      (slot.producer.realize.run world).1

theorem answering_of_answer? (r : Registry (StateM σ)) (runs : RunLog) (world : σ)
    (category : Category) (slot : Slot (StateM σ)) (answer : Option Artifact)
    (h : runs.answer? category slot = some answer) :
    answering (r.answersFrom runs world) category slot = some answer := by
  unfold RunLog.answer? at h
  rw [answering, answersFrom, h, Option.getD_some]

/-- All these answers were given by the producers of the slots. -/
theorem RealizesOnce.gives_answersFrom {r : Registry (StateM σ)} {inquiries : List Inquiry}
    {replies : List Reply} {runs : RunLog} (h : r.RealizesOnce inquiries replies runs)
    {category : Category} (hdistinct : (r.identifiers category).Nodup) {slot : Slot (StateM σ)}
    (hslot : slot ∈ (r.index category).slots) (world : σ) :
    slot.producer.Gives (r.answersFrom runs world category slot.identifier) := by
  cases hrun : runs.answer? category slot with
  | some answer =>
    have hanswer := answering_of_answer? r runs world category slot answer hrun
    rw [answering, Option.some.injEq] at hanswer
    rw [hanswer]
    exact h.gives hdistinct hslot ((RunLog.answer?_eq_some_iff h.once).1 hrun)
  | none =>
    have hown := (find?_key_eq_some_iff (f := Slot.identifier) hdistinct).2 ⟨hslot, rfl⟩
    unfold RunLog.answer? at hrun
    rw [answersFrom, hrun, hown]
    exact ⟨world, rfl⟩

end Registry

/-! ## The answers of sources -/

namespace Source

/-- Asked for this, the source gives the answer in some world. -/
def Gives (s : Source (StateM σ)) (category : Category) (identifier : String)
    (answer : Option Artifact) : Prop :=
  ∃ world, ((s.find category identifier).run world).1 = answer

/-- The source has an artifact, whatever the world. -/
def Has (s : Source (StateM σ)) (category : Category) (identifier : String) : Prop :=
  ∀ world, ((s.find category identifier).run world).1.isSome = true

/-- Whether the source has an artifact does not depend on the world. -/
def Steady (s : Source (StateM σ)) (category : Category) (identifier : String) : Prop :=
  ∀ world world', ((s.find category identifier).run world).1.isSome =
    ((s.find category identifier).run world').1.isSome

theorem Steady.has_iff {s : Source (StateM σ)} {category : Category} {identifier : String}
    (h : s.Steady category identifier) {answer : Option Artifact}
    (hgives : s.Gives category identifier answer) :
    s.Has category identifier ↔ answer.isSome = true := by
  rcases hgives with ⟨world, rfl⟩
  constructor
  · intro hhas
    exact hhas world
  · intro hsome world'
    rw [h world' world, hsome]

end Source

theorem Producer.Gives.of_imported {d : Definition (StateM σ)} {answer : Option Artifact}
    (h : (Producer.ofDefinition d).Gives answer) {s : Source (StateM σ)}
    (horigin : d.origin = .imported s) : s.Gives d.category d.identifier answer := by
  have hproducer : Producer.ofDefinition d = .fetch s d.category d.identifier := by
    rw [ofDefinition, horigin]
  rw [hproducer] at h
  exact h

/-- What is built has an artifact. -/
theorem Producer.Gives.isSome_of_built {d : Definition (StateM σ)} {answer : Option Artifact}
    (h : (Producer.ofDefinition d).Gives answer) {builder : Builder (StateM σ)}
    (horigin : d.origin = .built builder) : answer.isSome = true := by
  rcases h with ⟨world, rfl⟩
  simp only [ofDefinition, horigin]
  rfl

open Registry (ofDefinitions RegisteredAt MaterializeLaw)

/-- Whenever everything is asked for, in any sequence of inquiries, the outcome obeys the law of
materialization: it is the number of artifacts, or the first missing import. What counts as missing is
decided by one answer for each import, which the source gave; if it does not depend on the state whether
a source has an artifact, it is decided by just this. -/
theorem materialize_names_first_missing (builtinSource : String) (diagnostics : List Diagnostic)
    (ds : List (Definition (StateM σ))) (inquiries : List Inquiry) (world : σ) (p : Nat)
    (hp : inquiries[p]? = some .materialize) :
    let r := ofDefinitions builtinSource ds diagnostics
    let registered := RegisteredAt builtinSource diagnostics ds
    ∃ outcome,
      (((r.replies Slot.realizeOnce inquiries).run {}).run world).1.1[p]? =
          some (.total outcome) ∧
        (∃ answer : Category → String → Option Artifact,
          (∀ p d s, registered p d → d.origin = .imported s →
            s.Gives d.category d.identifier (answer d.category d.identifier)) ∧
          MaterializeLaw registered (fun d _ => (answer d.category d.identifier).isSome = true) r
            outcome) ∧
        ((∀ p d s, registered p d → d.origin = .imported s → s.Steady d.category d.identifier) →
          MaterializeLaw registered (fun d s => s.Has d.category d.identifier) r outcome) := by
  intro r registered
  -- the reply is read off the log, hence it is the one for answers that extend the log
  rcases r.exists_realizesOnce inquiries world with ⟨replies, cache, runs, world', hcomes, h⟩
  rcases Registry.exists_reply_of_replies h.read hp with ⟨a, ha, hget⟩
  have hanswers := Registry.reply_mono (r.answering_of_answer? runs world) ha
  rcases Option.bind_eq_some_iff.1 hanswers with ⟨outcome, hread, htotal⟩
  obtain rfl : Reply.total outcome = a := Option.some.inj htotal
  have hgives : ∀ p d, registered p d → (Producer.ofDefinition d).Gives
      (r.answersFrom runs world d.category d.identifier) := by
    intro p d hd
    have hdistinct := Registry.nodup_identifiers_ofDefinitions builtinSource ds diagnostics d.category
    have hslot : Slot.ofDefinition d ∈ (r.index d.category).slots :=
      Registry.mem_slots_iff.2 ⟨p, d, ⟨hd, rfl⟩, rfl⟩
    exact h.gives_answersFrom hdistinct hslot world
  have hbuilt : ∀ p d builder, registered p d → d.origin = .built builder →
      (r.answersFrom runs world d.category d.identifier).isSome = true := by
    intro p d builder hd horigin
    exact (hgives p d hd).isSome_of_built horigin
  refine ⟨outcome, by rwa [hcomes.plain], ⟨r.answersFrom runs world, ?_, ?_⟩, ?_⟩
  · intro p d s hd horigin
    exact (hgives p d hd).of_imported horigin
  · exact Registry.Fits.materializeLaw ⟨hbuilt, fun _ _ _ _ _ => Iff.rfl⟩ hread
  · intro hsteady
    refine Registry.Fits.materializeLaw ⟨hbuilt, ?_⟩ hread
    intro p d s hd horigin
    exact (hsteady p d s hd horigin).has_iff ((hgives p d hd).of_imported horigin)

/-- A source that has nothing and counts how often it is asked. -/
def nowhere : Source (StateM Nat) := ⟨"nowhere", fun _ _ => do
  modify (· + 1)
  return none⟩

/-- A type that nobody has. -/
def ghost : Definition (StateM Nat) :=
  { category := .type, identifier := "ghost", name := "Ghost", origin := .imported nowhere }

/-- Before the type stands a directive that nobody has either, after it a type that loses on its
identifier. -/
def haunted : List (Definition (StateM Nat)) :=
  [{ category := .directive, identifier := "tag", name := "tag", origin := .imported nowhere },
    { category := .type, identifier := "user", name := "User", origin := .built .plain },
    ghost,
    { category := .type, identifier := "user", name := "Usurper", origin := .imported nowhere }]

/-- The type is named although the directive was registered before it, also when everything is asked for
once more. -/
theorem haunted_names_ghost :
    (∀ p d s, RegisteredAt "builtins" [] haunted p d → d.origin = .imported s →
      s.Steady d.category d.identifier) ∧
    ((((ofDefinitions "builtins" haunted []).replies Slot.realizeOnce
      [.lookup .type "User", .materialize, .find .directive "tag", .materialize]).run {}).run
        0).1.1[3]? = some (.total (.error ⟨.type, "ghost", "nowhere"⟩)) := by
  have hsteady : ∀ p d s, RegisteredAt "builtins" [] haunted p d → d.origin = .imported s →
      s.Steady d.category d.identifier := by
    rintro p d s ⟨hd, -⟩ horigin
    have hmem := List.mem_of_getElem? hd
    simp only [haunted, List.mem_cons, List.not_mem_nil, or_false] at hmem
    rcases hmem with rfl | rfl | rfl | rfl
    all_goals cases horigin
    all_goals exact fun _ _ => rfl
  have hfirst : Registry.FirstMissing (RegisteredAt "builtins" [] haunted)
      (fun d s => s.Has d.category d.identifier) 2 ghost nowhere := by
    refine ⟨⟨⟨rfl, by decide⟩, rfl, ?_⟩, ?_⟩
    · intro hhas
      exact Bool.false_ne_true (hhas 0)
    · rintro q e t ⟨⟨he, -⟩, horigin, -⟩
      match q, he with
      | 0, he =>
        cases he
        exact .inr ⟨rfl, rfl⟩
      | 1, he =>
        cases he
        cases horigin
      | 2, he =>
        cases he
        exact .inl ⟨rfl, by omega⟩
      | 3, he =>
        cases he
        exact .inl ⟨rfl, by omega⟩
  rcases materialize_names_first_missing "builtins" [] haunted
    [.lookup .type "User", .materialize, .find .directive "tag", .materialize] 0 3 rfl with
    ⟨outcome, hreply, -, hlaw⟩
  have herror := ((hlaw hsteady).error _).2 ⟨2, ghost, nowhere, hfirst, rfl⟩
  rw [herror] at hreply
  exact ⟨hsteady, hreply⟩

end SchemaRegistry
