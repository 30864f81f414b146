import SchemaRegistry.Proofs.Document
import SchemaRegistry.Proofs.Rule.Revision
import SchemaRegistry.Proofs.Verdict
import SchemaRegistry.Proofs.Workbench.Shelf

/-!
# Sessions at a workbench

In a session definitions come in, rules run, registries are assembled and become sources of others, and all of
them are asked, in any order (`Workbench.Step`). Registries keep their answers all the while, and import from
each other's kept answers.

What is kept is always what the registries would answer if nothing was kept anywhere (`Workbench.Sound`). Each
step keeps this (`Workbench.Sound.step`): a new registry depends on those before it only, so its answers are
settled when it is assembled. Hence nobody who asks can tell that answers are kept
(`kept_answers_are_those_anew`), and a chain of registries hands on what the first one has
(`kept_answers_are_relayed`).
-/

namespace SchemaRegistry

open Definition (accepted)

/-! ## Work without registries -/

/-- The work always comes to this result, and leaves alone what registries have kept. -/
def Independent {α : Type} (work : Work α) (a : α) : Prop :=
  ∀ shelf : Shelf, ∃ shelf', work.run shelf = (a, shelf') ∧ shelf'.caches = shelf.caches

theorem Independent.yields {α : Type} {work : Work α} {a : α} (h : Independent work a) (answers : Answers)
    (bound : Nat) : Yields answers bound work a := by
  intro shelf hshelf
  obtain ⟨shelf', hrun, hcaches⟩ := h shelf
  have hcache : shelf'.cache = shelf.cache := by
    funext number
    rw [Shelf.cache, hcaches, Shelf.cache]
  refine ⟨shelf', hrun, ?_, fun number _ => congrFun hcache number, congrArg List.length hcaches⟩
  rw [Shelf.Keeps, hcache]
  exact hshelf

/-- The artifact depends on the declaration alone. -/
def Builder.Independent (builder : Builder Work) : Prop :=
  ∀ d, ∃ a, SchemaRegistry.Independent (builder d) a

/-- What is found depends on category and identifier alone. -/
def Source.Independent (source : Source Work) : Prop :=
  ∀ category identifier, ∃ answer, SchemaRegistry.Independent (source.find category identifier) answer

theorem Builder.independent_plain : (Builder.plain : Builder Work).Independent :=
  fun _ => ⟨_, fun shelf => ⟨shelf, rfl, rfl⟩⟩

/-- To count the runs is not to touch what registries have kept. -/
theorem Builder.independent_counting : Builder.counting.Independent :=
  fun _ => ⟨_, fun shelf => ⟨{ shelf with builds := shelf.builds + 1 }, rfl, rfl⟩⟩

theorem Builder.independent_marking : (Builder.marking : Builder Work).Independent :=
  fun _ => ⟨_, fun shelf => ⟨shelf, rfl, rfl⟩⟩

/-! ## Settled origins -/

section Settled

variable {answers answers' : Answers} {bound bound' : Nat}

/-- Whatever is looked for in the source, it yields an answer. -/
def Source.Settled (source : Source Work) (answers : Answers) (bound : Nat) : Prop :=
  ∀ category identifier, ∃ answer, Yields answers bound (source.find category identifier) answer

/-- What definitions of this origin come to is settled by the registries before `bound`. -/
def Origin.Settled (answers : Answers) (bound : Nat) : Origin Work → Prop
  | .imported source => source.Settled answers bound
  | .built builder => ∀ d, ∃ a, Yields answers bound (builder d) a

theorem Source.Independent.settled {source : Source Work} (h : source.Independent) (answers : Answers)
    (bound : Nat) : source.Settled answers bound := by
  intro category identifier
  obtain ⟨answer, hanswer⟩ := h category identifier
  exact ⟨answer, hanswer.yields answers bound⟩

theorem Builder.Independent.settled {builder : Builder Work} (h : builder.Independent) (answers : Answers)
    (bound : Nat) : (Origin.built builder).Settled answers bound := by
  intro d
  obtain ⟨a, ha⟩ := h d
  exact ⟨a, ha.yields answers bound⟩

theorem Source.Settled.mono {source : Source Work} (h : source.Settled answers bound)
    (hle : bound ≤ bound') (hsame : ∀ number < bound, answers' number = answers number) :
    source.Settled answers' bound' := by
  intro category identifier
  obtain ⟨answer, hanswer⟩ := h category identifier
  exact ⟨answer, hanswer.mono hle hsame⟩

theorem Origin.Settled.mono {origin : Origin Work} (h : origin.Settled answers bound)
    (hle : bound ≤ bound') (hsame : ∀ number < bound, answers' number = answers number) :
    origin.Settled answers' bound' := by
  cases origin with
  | imported source => exact Source.Settled.mono h hle hsame
  | built builder =>
    intro d
    obtain ⟨a, ha⟩ := h d
    exact ⟨a, ha.mono hle hsame⟩

theorem Origin.Settled.exists_producer {d : Definition Work} (h : d.origin.Settled answers bound) :
    ∃ answer, Yields answers bound (Producer.ofDefinition d).realize answer := by
  rw [Producer.ofDefinition]
  cases horigin : d.origin with
  | imported source =>
    rw [horigin] at h
    exact h d.category d.identifier
  | built builder =>
    rw [horigin] at h
    obtain ⟨a, ha⟩ := h d.toDeclaration
    exact ⟨some a, ha.bind (.pure answers bound (some a))⟩

/-- What a registry finds if nothing is kept anywhere. -/
def Registry.anew (r : Registry Work) (category : Category) (identifier : String) : Option Artifact :=
  ((r.find Slot.realize category identifier).run {}).1

/-- A registry of definitions with settled origins is settled: its answers are what it finds anew. -/
theorem ShelvedRegistry.settled_ofDefinitions {number : Nat} {builtinSource : String}
    {ds : List (Definition Work)} {diagnostics : List Diagnostic}
    (hds : ∀ d ∈ ds, d.origin.Settled answers number)
    (hanswers : answers number = (Registry.ofDefinitions builtinSource ds diagnostics).anew) :
    Settled ⟨number, .ofDefinitions builtinSource ds diagnostics⟩ answers := by
  have hholds := Registry.ofDefinitions_holds builtinSource ds diagnostics
  intro category slot hslot
  rw [hholds.slots category] at hslot
  obtain ⟨d, hd, rfl⟩ := List.mem_map.1 hslot
  obtain ⟨haccepted, hcategory⟩ := List.mem_filter.1 hd
  obtain rfl : d.category = category := of_decide_eq_true hcategory
  obtain ⟨answer, hanswer⟩ := (hds d (Definition.mem_of_mem_accepted haccepted)).exists_producer
  have hfind := hholds.find?_of_mem (Definition.compatible_accepted ds) haccepted
  have hanew : answers number d.category d.identifier = answer := by
    simp only [hanswers, Registry.anew, Registry.find, hfind]
    exact hanswer.run_eq (Shelf.keeps_empty answers number)
  exact hanew ▸ hanswer

end Settled

/-- The built-in library needs no registries. -/
theorem BuiltinLibrary.independent_source (name : String) : (source name : Source Work).Independent := by
  intro category identifier
  have hholds := Registry.ofDefinitions_holds sourceName (definitions : List (Definition Work)) []
  simp only [source, Registry.asSource, Registry.find]
  cases hslot : ((registry : Registry Work).index category).find? identifier with
  | none => exact ⟨none, fun shelf => ⟨shelf, rfl, rfl⟩⟩
  | some slot =>
    have hmem := Index.mem_slots_of_find? hslot
    rw [registry, hholds.slots category] at hmem
    obtain ⟨d, hd, rfl⟩ := List.mem_map.1 hmem
    have horigin := origin_of_mem_definitions
      (Definition.mem_of_mem_accepted (List.mem_of_mem_filter hd))
    simp only [Slot.realize, Slot.ofDefinition, Producer.ofDefinition, horigin]
    exact ⟨_, fun shelf => ⟨shelf, rfl, rfl⟩⟩

/-! ## Steps -/

namespace Workbench

/-- A definition can be built without registries, or imported from a source of the workbench. -/
def Offers (b : Workbench) : Origin Work → Prop
  | .imported source => ∃ name, b.sources.get? name = some source
  | .built builder => builder.Independent

/-- One step of a session. -/
inductive Step (b : Workbench) : Workbench → Prop where
  | define {d : Definition Work} (h : b.Offers d.origin) : Step b (b.define d)
  | add {text : String} {loaded : Loaded Work} (h : Document.parse b.sources text = .ok loaded) :
    Step b (b.add loaded)
  | describe (identifier text : String) : Step b (b.describe identifier text)
  | reset : Step b b.reset
  | describeDefinitions : Step b b.describeDefinitions
  | link (mutation subscription : String) : Step b (b.link mutation subscription)
  | check {rule : Rule Work} (h : rule.KeepsHeadings) : Step b (b.check rule)
  | runRules {rules : List (Rule Work)} (h : ∀ rule ∈ rules, rule.KeepsHeadings) :
    Step b (b.runRules rules)
  /-- A source that needs no registries, as the built-in library. -/
  | addSource {source : Source Work} (h : source.Independent) : Step b (b.addSource source)
  /-- A registry becomes a source. -/
  | share {key : String} {r : ShelvedRegistry} (h : b.registries.get? key = some r) (name : String) :
    Step b (b.addSource (r.asSource name))
  | assemble (key : String) (schema : SchemaNames) {rules : List (Rule Work)}
    (h : ∀ rule ∈ rules, rule.KeepsHeadings) : Step b (b.addRegistry key (b.assemble schema rules))
  | addLibrary (key : String) : Step b (b.addRegistry key BuiltinLibrary.registry)
  | ask {key : String} {r : ShelvedRegistry} (h : b.registries.get? key = some r) (inquiry : Inquiry) :
    Step b (b.work (r.registry.reply r.realize inquiry)).2
  | askSource {key : String} {source : Source Work} (h : b.sources.get? key = some source)
    (category : Category) (identifier : String) : Step b (b.work (source.find category identifier)).2

/-- A session that begins with an empty workbench can lead to this one. -/
def Reached (b : Workbench) : Prop := Relation.ReflTransGen Step {} b

/-- Everything at the workbench is settled by its registries, which have these answers and have kept no
others. -/
structure Sound (b : Workbench) (answers : Answers) : Prop where
  kept : b.shelf.Keeps answers b.shelf.caches.length
  registries : ∀ key r, b.registries.get? key = some r →
    r.number < b.shelf.caches.length ∧ r.Settled answers
  sources : ∀ key source, b.sources.get? key = some source →
    source.Settled answers b.shelf.caches.length
  definitions : ∀ d ∈ b.definitions, d.origin.Settled answers b.shelf.caches.length

theorem sound_empty (answers : Answers) : ({} : Workbench).Sound answers where
  kept := Shelf.keeps_empty answers 0
  registries _ _ h := by cases h
  sources _ _ h := by cases h
  definitions _ h := absurd h List.not_mem_nil

namespace Sound

variable {b : Workbench} {answers : Answers}

theorem settled_of_offers (h : b.Sound answers) {origin : Origin Work} (hoffers : b.Offers origin) :
    origin.Settled answers b.shelf.caches.length := by
  cases origin with
  | imported source =>
    obtain ⟨key, hkey⟩ := hoffers
    exact h.sources key source hkey
  | built builder => exact hoffers.settled answers _

/-- Other definitions may take the place of those of the workbench, as long as they are settled. -/
theorem withDefinitions (h : b.Sound answers) {ds : List (Definition Work)}
    (hds : ∀ d ∈ ds, d.origin.Settled answers b.shelf.caches.length) (descriptions : Descriptions)
    (diagnostics : List Diagnostic) :
    { b with definitions := ds, descriptions, diagnostics : Workbench }.Sound answers where
  kept := h.kept
  registries := h.registries
  sources := h.sources
  definitions := hds

/-- Definitions with the same headings are settled as well. -/
theorem settled_of_heading (h : b.Sound answers) {d : Definition Work}
    (hheading : ∃ e ∈ b.definitions, e.heading = d.heading) :
    d.origin.Settled answers b.shelf.caches.length := by
  obtain ⟨e, he, hsame⟩ := hheading
  have horigin : e.origin = d.origin := congrArg (·.origin) hsame
  exact horigin ▸ h.definitions e he

theorem settled_of_headings (h : b.Sound answers) {ds : List (Definition Work)}
    (hheadings : ds.map Definition.heading = b.definitions.map Definition.heading) :
    ∀ d ∈ ds, d.origin.Settled answers b.shelf.caches.length := by
  intro d hd
  have hmem : d.heading ∈ b.definitions.map Definition.heading := hheadings ▸ List.mem_map_of_mem hd
  exact h.settled_of_heading (List.mem_map.1 hmem)

/-- What rules hand on is settled. -/
theorem settled_of_runFrom (h : b.Sound answers) {rules : List (Rule Work)}
    (hrules : ∀ rule ∈ rules, rule.KeepsHeadings) {ds : List (Definition Work)}
    (hds : ds.map Definition.heading = b.definitions.map Definition.heading)
    (diagnostics : List Diagnostic) :
    ∀ d ∈ (Rule.runFrom ⟨ds, diagnostics⟩ rules).definitions,
      d.origin.Settled answers b.shelf.caches.length := by
  intro d hd
  obtain ⟨e, he, hheading⟩ := Rule.exists_heading_of_mem_runFrom hrules hd
  have hmem : e.heading ∈ b.definitions.map Definition.heading := hds ▸ List.mem_map_of_mem he
  rw [hheading] at hmem
  exact h.settled_of_heading (List.mem_map.1 hmem)

theorem addSource (h : b.Sound answers) {source : Source Work}
    (hsource : source.Settled answers b.shelf.caches.length) : (b.addSource source).Sound answers where
  kept := h.kept
  registries := h.registries
  sources key source' hget := by
    rw [Workbench.addSource, SortedMap.get?_insert] at hget
    split at hget
    · cases hget
      exact hsource
    · exact h.sources key source' hget
  definitions := h.definitions

/-- Work with one result leaves the workbench sound. -/
theorem work (h : b.Sound answers) {α : Type} {w : Work α} {a : α}
    (hw : Yields answers b.shelf.caches.length w a) : (b.work w).2.Sound answers := by
  have hpasses := hw.passes h.kept
  have hlength : (b.work w).2.shelf.caches.length = b.shelf.caches.length := hpasses.length_eq
  refine ⟨?_, ?_, ?_, ?_⟩ <;> rw [hlength]
  · exact hpasses.keeps
  · exact h.registries
  · exact h.sources
  · exact h.definitions

/-- A new registry gets a number after those of the others, and its own answers. -/
theorem addRegistry (h : b.Sound answers) (key : String) {builtinSource : String}
    {ds : List (Definition Work)} {diagnostics : List Diagnostic}
    (hds : ∀ d ∈ ds, d.origin.Settled answers b.shelf.caches.length) :
    let r := Registry.ofDefinitions builtinSource ds diagnostics
    (b.addRegistry key r).Sound (Function.update answers b.shelf.caches.length r.anew) := by
  intro r
  have hsame : ∀ number < b.shelf.caches.length,
      Function.update answers b.shelf.caches.length r.anew number = answers number :=
    fun number hlt => Function.update_of_ne (Nat.ne_of_lt hlt) _ _
  have hlength : (b.addRegistry key r).shelf.caches.length = b.shelf.caches.length + 1 := by
    simp [Workbench.addRegistry]
  have hcache : ∀ number < b.shelf.caches.length,
      (b.addRegistry key r).shelf.cache number = b.shelf.cache number := by
    intro number hlt
    simp [Workbench.addRegistry, Shelf.cache, List.getElem?_append_left hlt]
  refine ⟨?_, ?_, ?_, ?_⟩ <;> rw [hlength]
  · intro number hlt category identifier answer hanswer
    rcases Nat.lt_or_eq_of_le (Nat.le_of_lt_succ hlt) with hbefore | rfl
    · rw [hcache number hbefore] at hanswer
      rw [hsame number hbefore]
      exact h.kept number hbefore category identifier answer hanswer
    · -- the new registry has kept nothing yet
      simp only [Workbench.addRegistry, Shelf.cache, List.getElem?_concat_length, Option.getD_some]
        at hanswer
      cases category <;> cases hanswer
  · intro key' r' hget
    rw [Workbench.addRegistry, SortedMap.get?_insert] at hget
    split at hget
    · cases hget
      refine ⟨Nat.lt_succ_self _, ShelvedRegistry.settled_ofDefinitions ?_ (Function.update_self _ _ _)⟩
      exact fun d hd => (hds d hd).mono (Nat.le_refl _) hsame
    · obtain ⟨hlt, hsettled⟩ := h.registries key' r' hget
      exact ⟨Nat.lt_succ_of_lt hlt, hsettled.congr fun number hle => hsame number (by omega)⟩
  · exact fun key' source hget => (h.sources key' source hget).mono (Nat.le_succ _) hsame
  · exact fun d hd => (h.definitions d hd).mono (Nat.le_succ _) hsame

/-- What a document brings is settled by the sources of the workbench. -/
theorem settled_of_parse (h : b.Sound answers) {text : String} {loaded : Loaded Work}
    (hparse : Document.parse b.sources text = .ok loaded) :
    ∀ d ∈ loaded.definitions, d.origin.Settled answers b.shelf.caches.length := by
  obtain ⟨doc, -, hresolve⟩ := Document.parse_eq_ok_iff.1 hparse
  obtain ⟨hall, -⟩ := Document.resolve_eq_ok_iff.1 hresolve
  intro d hd
  obtain ⟨k, hk⟩ := List.getElem?_of_mem hd
  obtain ⟨e, -, he⟩ := exists_getElem?_of_forall₂ hall.flip hk
  obtain ⟨origin, horigin, rfl⟩ := Entry.resolve_eq_ok_iff.1 he
  apply h.settled_of_offers
  change b.Offers origin
  unfold Entry.HasOrigin at horigin
  cases hsource : e.source with
  | none =>
    rw [hsource] at horigin
    subst horigin
    exact Builder.independent_plain
  | some name =>
    rw [hsource] at horigin
    obtain ⟨source, hget, rfl⟩ := horigin
    exact ⟨name, hget⟩

/-- Every step leaves the workbench sound, with the answers it had and those of a new registry. -/
theorem step {b' : Workbench} (h : b.Sound answers) (hstep : b.Step b') : ∃ answers', b'.Sound answers' := by
  cases hstep with
  | @define d hoffers =>
    refine ⟨answers, h.withDefinitions ?_ _ _⟩
    exact List.forall_mem_append.2 ⟨h.definitions, List.forall_mem_singleton.2 (h.settled_of_offers hoffers)⟩
  | add hparse =>
    exact ⟨answers, h.withDefinitions
      (List.forall_mem_append.2 ⟨h.definitions, h.settled_of_parse hparse⟩) _ _⟩
  | describe identifier text => exact ⟨answers, h.withDefinitions h.definitions _ _⟩
  | reset => exact ⟨answers, h.withDefinitions (fun d hd => absurd hd List.not_mem_nil) _ _⟩
  | describeDefinitions =>
    refine ⟨answers, h.withDefinitions (h.settled_of_headings ?_) _ _⟩
    rw [Definition.describeAll, List.map_map]
    exact List.map_congr_left fun d _ => Definition.heading_describe _ d
  | link mutation subscription =>
    exact ⟨answers, h.withDefinitions
      (h.settled_of_headings (Definition.linkTriggers_headings mutation subscription _)) _ _⟩
  | @check rule hrule =>
    -- one rule is a pipeline of its own, from the findings so far
    have hrules : ∀ rule' ∈ [rule], rule'.KeepsHeadings := List.forall_mem_singleton.2 hrule
    exact ⟨answers, h.withDefinitions (h.settled_of_runFrom hrules rfl b.diagnostics) _ _⟩
  | runRules hrules =>
    exact ⟨answers, h.withDefinitions (h.settled_of_runFrom hrules rfl []) _ _⟩
  | addSource hsource => exact ⟨answers, h.addSource (hsource.settled answers _)⟩
  | @share key r hget name =>
    obtain ⟨hlt, hsettled⟩ := h.registries key r hget
    refine ⟨answers, h.addSource fun category identifier => ?_⟩
    obtain ⟨answer, hanswer, -⟩ := hsettled.yields_find name category identifier
    exact ⟨answer, hanswer.mono hlt fun _ _ => rfl⟩
  | assemble key schema hrules =>
    exact ⟨_, h.addRegistry key
      (h.settled_of_runFrom hrules (Definition.prepare_headings schema b.descriptions b.definitions) [])⟩
  | addLibrary key =>
    refine ⟨_, h.addRegistry key fun d hd => ?_⟩
    rw [BuiltinLibrary.origin_of_mem_definitions hd]
    exact Builder.independent_plain.settled answers _
  | @ask key r hget inquiry =>
    obtain ⟨hlt, hsettled⟩ := h.registries key r hget
    exact ⟨answers, h.work ((hsettled.yields_reply inquiry).1.mono hlt fun _ _ => rfl)⟩
  | askSource hget category identifier =>
    obtain ⟨answer, hanswer⟩ := h.sources _ _ hget category identifier
    exact ⟨answers, h.work hanswer⟩

end Sound

theorem Reached.exists_sound {b : Workbench} (h : b.Reached) : ∃ answers, b.Sound answers := by
  induction h with
  | refl => exact ⟨fun _ _ _ => none, sound_empty _⟩
  | tail _ hstep ih =>
    obtain ⟨answers, hsound⟩ := ih
    exact hsound.step hstep

end Workbench

/-! ## Kept answers -/

/-- A registry that yields its replies one by one yields them one after the other. -/
theorem yields_replies {answers : Answers} {bound : Nat} {r : Registry Work}
    {realize : Realization Work Work} {reply : Inquiry → Reply}
    (h : ∀ inquiry, Yields answers bound (r.reply realize inquiry) (reply inquiry))
    (inquiries : List Inquiry) : Yields answers bound (r.replies realize inquiries) (inquiries.map reply) := by
  induction inquiries with
  | nil => exact .pure answers bound []
  | cons inquiry rest ih => exact (h inquiry).bind (ih.bind (.pure answers bound _))

/-- Wherever a session has come to, a registry of the workbench replies to any inquiries, one after the other,
what it would reply if no registry had kept anything and everything was obtained anew. -/
theorem kept_answers_are_those_anew {b : Workbench} (h : b.Reached) {key : String} {r : ShelvedRegistry}
    (hr : b.registries.get? key = some r) (inquiries : List Inquiry) :
    (b.work (r.registry.replies r.realize inquiries)).1 =
      inquiries.map fun inquiry => ((r.registry.reply Slot.realize inquiry).run {}).1 := by
  obtain ⟨answers, hsound⟩ := h.exists_sound
  obtain ⟨hlt, hsettled⟩ := hsound.registries key r hr
  have hanew : ∀ inquiry, ((r.registry.reply Slot.realize inquiry).run {}).1 = r.replyFrom answers inquiry :=
    fun inquiry => (hsettled.yields_reply inquiry).2.run_eq (Shelf.keeps_empty answers _)
  have hkept : Yields answers b.shelf.caches.length (r.registry.replies r.realize inquiries)
      (inquiries.map (r.replyFrom answers)) :=
    yields_replies (fun inquiry => (hsettled.yields_reply inquiry).1.mono hlt fun _ _ => rfl) inquiries
  rw [funext hanew]
  exact hkept.run_eq hsound.kept

/-- Wherever a session has come to, what a registry finds as a source is what it finds as a source that
obtains everything anew. -/
theorem kept_source_is_that_anew {b : Workbench} (h : b.Reached) {key : String} {r : ShelvedRegistry}
    (hr : b.registries.get? key = some r) (name : String) (category : Category) (identifier : String) :
    (b.work ((r.asSource name).find category identifier)).1 =
      (((r.registry.asSource name).find category identifier).run {}).1 := by
  obtain ⟨answers, hsound⟩ := h.exists_sound
  obtain ⟨hlt, hsettled⟩ := hsound.registries key r hr
  obtain ⟨answer, hkept, hanew⟩ := hsettled.yields_find name category identifier
  rw [hanew.run_eq (Shelf.keeps_empty answers _)]
  exact (hkept.mono hlt fun _ _ => rfl).run_eq hsound.kept

/-- Under the identifier the registry has registered an import from the other one. -/
def ShelvedRegistry.ImportsFrom (r r' : ShelvedRegistry) (category : Category) (identifier : String) :
    Prop :=
  ∃ slot name, (r.registry.index category).find? identifier = some slot ∧
    slot.producer = .fetch (r'.asSource name) category identifier

/-- One import hands on what the other registry has, also if that one keeps its answers. -/
theorem ShelvedRegistry.ImportsFrom.anew_eq {r r' : ShelvedRegistry} {category : Category}
    {identifier : String} (h : r.ImportsFrom r' category identifier) {answers : Answers}
    (hsettled : r'.Settled answers) :
    r.registry.anew category identifier = r'.registry.anew category identifier := by
  obtain ⟨slot, name, hslot, hproducer⟩ := h
  obtain ⟨answer, hkept, hanew⟩ := hsettled.yields_find name category identifier
  have hthere : r'.registry.anew category identifier = answer :=
    hanew.run_eq (Shelf.keeps_empty answers _)
  simp only [Registry.anew, Registry.find, hslot, Slot.realize, hproducer]
  exact (hkept.run_eq (Shelf.keeps_empty answers _)).trans hthere.symm

/-- Wherever a session has come to: in the last of any registries each of which imports from the one before it,
under one identifier, is found what the first one has, obtained anew. -/
theorem kept_answers_are_relayed {b : Workbench} (h : b.Reached) {R : Nat → ShelvedRegistry} {n : Nat}
    {category : Category} {identifier : String} (hR : ∀ k ≤ n, ∃ key, b.registries.get? key = some (R k))
    (himports : ∀ k < n, (R (k + 1)).ImportsFrom (R k) category identifier) (name : String) :
    (b.work (((R n).asSource name).find category identifier)).1 =
      (((R 0).registry.find Slot.realize category identifier).run {}).1 := by
  obtain ⟨answers, hsound⟩ := h.exists_sound
  have hchain : ∀ k ≤ n,
      (R k).registry.anew category identifier = (R 0).registry.anew category identifier := by
    intro k hk
    induction k with
    | zero => rfl
    | succ k ih =>
      obtain ⟨key, hkey⟩ := hR k (by omega)
      have hlink := (himports k hk).anew_eq (hsound.registries key _ hkey).2
      rw [hlink, ih (by omega)]
  obtain ⟨key, hkey⟩ := hR n (Nat.le_refl n)
  rw [kept_source_is_that_anew h hkey]
  exact hchain n (Nat.le_refl n)

end SchemaRegistry
