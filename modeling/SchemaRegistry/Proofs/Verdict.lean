import SchemaRegistry.Command.Run
import SchemaRegistry.Proofs.Document
import SchemaRegistry.Proofs.Service

/-!
# The verdict of the check

Whoever runs the check in a script sees its exit code only. It is 0 for the documents that pass
(`Document.Passes`): every source is the built-in library, the registry has no findings, and every
registered import is there in the library. It is 1 for every other content of the file
(`check_exits_by_verdict`).

Two things can go wrong that do not hang together: findings are collected in the registry, and an import
that is missing ends the realization of its slots. Whether all slots can be realized is a question of the
imports alone (`Document.exists_materialize_eq_ok_iff`), and the findings are printed before it is asked.
-/

namespace SchemaRegistry

variable {m : Type → Type}

/-! ## Realizing everything -/

namespace Registry

theorem exists_materializeSlots_eq_ok_iff {realize : Realization m Id} {category : Category}
    {slots : List (Slot m)} :
    (∃ count, Id.run (materializeSlots realize category slots) = .ok count) ↔
      ∀ slot ∈ slots, ∃ a, Id.run (realize category slot) = some a := by
  induction slots with
  | nil => exact ⟨fun _ => by simp, fun _ => ⟨0, rfl⟩⟩
  | cons slot rest ih =>
    rw [List.forall_mem_cons, ← ih]
    simp only [materializeSlots, Id.run_bind]
    cases Id.run (realize category slot) with
    | none => simp
    | some a =>
      cases hrest : Id.run (materializeSlots realize category rest) with
      | error missing => simp [hrest, Except.map]
      | ok count => simp [hrest, Except.map]

/-- All slots are realized if and only if there is an artifact for each of them. -/
theorem exists_materialize_eq_ok_iff {realize : Realization m Id} {r : Registry m} :
    (∃ count, Id.run (r.materialize realize) = .ok count) ↔
      ∀ category, ∀ slot ∈ (r.index category).slots, ∃ a, Id.run (realize category slot) = some a := by
  have hcategories : (∀ category, ∀ slot ∈ (r.index category).slots,
        ∃ a, Id.run (realize category slot) = some a) ↔
      (∀ slot ∈ r.types.slots, ∃ a, Id.run (realize .type slot) = some a) ∧
        ∀ slot ∈ r.directives.slots, ∃ a, Id.run (realize .directive slot) = some a := by
    constructor
    · intro h
      exact ⟨h .type, h .directive⟩
    · rintro ⟨htypes, hdirectives⟩ category
      cases category with
      | type => exact htypes
      | directive => exact hdirectives
  rw [hcategories, ← exists_materializeSlots_eq_ok_iff, ← exists_materializeSlots_eq_ok_iff]
  simp only [materialize, Id.run_bind]
  cases Id.run (materializeSlots realize .type r.types.slots) with
  | error missing => simp
  | ok types =>
    cases hdirectives : Id.run (materializeSlots realize .directive r.directives.slots) with
    | error missing => simp [hdirectives, Except.map]
    | ok directives => simp [hdirectives, Except.map]

end Registry

/-! ## The built-in library -/

namespace BuiltinLibrary

theorem origin_of_mem_definitions [Monad m] {d : Definition m} (h : d ∈ definitions) :
    d.origin = .built .plain := by
  have hall : ∀ d ∈ (definitions : List (Definition m)), d.origin = .built .plain := by
    simp [definitions, scalar, directive]
  exact hall d h

/-- The library finds what it registers, in the same category. -/
theorem exists_find_iff {name : String} {category : Category} {identifier : String} :
    (∃ a, Id.run ((source name).find category identifier) = some a) ↔
      identifier ∈ (registry : Registry Id).identifiers category := by
  let held := (Definition.accepted (definitions : List (Definition Id))).filter
    (·.category = category)
  have hslots : (registry : Registry Id).identifiers category = held.map (·.identifier) := by
    have h := (Registry.ofDefinitions_holds sourceName (definitions : List (Definition Id)) []).slots
      category
    unfold Registry.identifiers registry
    rw [h, List.map_map]
    rfl
  have hfind : (source name).find category identifier =
      Definition.answer Slot.realize category (held.find? (·.identifier == identifier)) :=
    Registry.finds_ofDefinitions sourceName [] definitions category identifier Id Slot.realize
  rw [hfind, hslots]
  cases hfound : held.find? (·.identifier == identifier) with
  | none =>
    have habsent := List.find?_eq_none.1 hfound
    simp only [beq_iff_eq] at habsent
    simp only [Definition.answer, List.mem_map]
    constructor
    · rintro ⟨a, ha⟩
      cases ha
    · rintro ⟨d, hd, heq⟩
      exact absurd heq (habsent d hd)
  | some d =>
    have hd : d ∈ held := List.mem_of_find?_eq_some hfound
    have hidentifier : d.identifier = identifier := by simpa using List.find?_some hfound
    have hmem : d ∈ definitions := Definition.mem_of_mem_accepted (List.mem_filter.1 hd).1
    constructor
    · intro _
      exact List.mem_map.2 ⟨d, hd, hidentifier⟩
    · intro _
      exact ⟨_, Slot.realize_of_plain (origin_of_mem_definitions hmem)⟩

end BuiltinLibrary

/-! ## Imports of a document -/

/-- Where the definition of an entry comes from if every source is the built-in library. -/
def Entry.origin [Monad m] (c : Config) (e : Entry) : Origin m :=
  if e.source = none then .built .plain
  else .imported (BuiltinLibrary.source c.schema.builtinSource)

/-- The entry names no source but the built-in library, under the name that the configuration has for
it. -/
def Entry.KnowsSource (c : Config) (e : Entry) : Prop :=
  e.source = none ∨ e.source = some c.schema.builtinSource

theorem Entry.hasOrigin_iff [Monad m] {c : Config} {e : Entry} {origin : Origin m} :
    e.HasOrigin c.sources origin ↔ e.KnowsSource c ∧ origin = e.origin c := by
  unfold HasOrigin KnowsSource Entry.origin Config.sources
  cases e.source with
  | none => simp
  | some name =>
    simp only [SortedMap.get?_insert]
    have hempty : (SortedMap.empty : Sources m).get? name = none := SortedMap.get?_empty name
    by_cases hname : name = c.schema.builtinSource
    · simp [hname]
    · simp [hname, hempty]

theorem Entry.resolve_sources_eq_ok_iff [Monad m] {c : Config} {file : String} {e : Entry}
    {d : Definition m} :
    e.resolve c.sources file = .ok d ↔ e.KnowsSource c ∧ d = e.definition file (e.origin c) := by
  rw [resolve_eq_ok_iff]
  constructor
  · rintro ⟨origin, horigin, rfl⟩
    obtain ⟨hknows, rfl⟩ := hasOrigin_iff.1 horigin
    exact ⟨hknows, rfl⟩
  · rintro ⟨hknows, rfl⟩
    exact ⟨_, hasOrigin_iff.2 ⟨hknows, rfl⟩, rfl⟩

namespace Document

/-- The definitions of the entries if every source is the built-in library. -/
def definitions [Monad m] (c : Config) (file : String) (doc : Document) : List (Definition m) :=
  doc.entries.map fun e => e.definition file (e.origin c)

/-- A document resolves if and only if every source is the built-in library. -/
theorem resolve_sources_eq_ok_iff [Monad m] {c : Config} {file : String} {doc : Document}
    {loaded : Loaded m} :
    doc.resolve c.sources file = .ok loaded ↔
      (∀ e ∈ doc.entries, e.KnowsSource c) ∧ loaded = ⟨doc.definitions c file, doc.descriptions⟩ := by
  have hentries : List.Forall₂ (fun e d => Entry.resolve c.sources file e = .ok d) doc.entries
        loaded.definitions ↔
      (∀ e ∈ doc.entries, e.KnowsSource c) ∧ loaded.definitions = doc.definitions c file := by
    simp only [Entry.resolve_sources_eq_ok_iff, eq_comm (b := Entry.definition _ _ _)]
    rw [List.forall₂_and_left, ← List.forall₂_map_left_iff (R := Eq), List.forall₂_eq_eq_eq, eq_comm]
    rfl
  rw [resolve_eq_ok_iff, hentries]
  constructor
  · rintro ⟨⟨hknows, hdefinitions⟩, hdescriptions⟩
    refine ⟨hknows, ?_⟩
    rw [← hdefinitions, hdescriptions]
  · rintro ⟨hknows, rfl⟩
    exact ⟨⟨hknows, rfl⟩, rfl⟩

/-- The registry of the document, assembled under the configuration. -/
def registry (c : Config) (file : String) (doc : Document) : Registry Id :=
  .assemble c doc.descriptions (doc.definitions c file)

/-- Every slot is the one of a definition of its category, with the origin of an entry. -/
theorem exists_definition_of_slot {c : Config} {file : String} {doc : Document} {category : Category}
    {slot : Slot Id} (h : slot ∈ ((doc.registry c file).index category).slots) :
    ∃ d : Definition Id, slot = Slot.ofDefinition d ∧ d.category = category ∧
      ∃ e ∈ doc.entries, d.origin = e.origin c := by
  let ds : List (Definition Id) := doc.definitions c file
  have hholds := Registry.ofDefinitions_holds c.schema.builtinSource (c.handedOn doc.descriptions ds)
    (Rule.runAll c.ruleList (Definition.prepare c.schema doc.descriptions ds)).diagnostics
  have hslots : ((doc.registry c file).index category).slots = _ := hholds.slots category
  rw [hslots] at h
  obtain ⟨d, hd, rfl⟩ := List.mem_map.1 h
  obtain ⟨haccepted, hcategory⟩ := List.mem_filter.1 hd
  refine ⟨d, rfl, by simpa using hcategory, ?_⟩
  -- what is handed on has the heading of a definition of the document, and with it the origin
  have hheading : d.heading ∈ (c.kept ds).map Definition.heading := by
    rw [← Config.headings_handedOn c doc.descriptions ds]
    exact List.mem_map_of_mem (Definition.mem_of_mem_accepted haccepted)
  obtain ⟨d', hd', hsame⟩ := List.mem_map.1 hheading
  obtain ⟨e, he, rfl⟩ := List.mem_map.1 (Config.mem_kept.1 hd').1
  refine ⟨e, he, ?_⟩
  rw [← Definition.origin_heading d, ← hsame]
  rfl

end Document

/-! ## Missing imports -/

/-- Every registered import names an identifier that the built-in library registers in the same
category. -/
def Registry.ImportsKnown (r : Registry Id) : Prop :=
  ∀ category, ∀ slot ∈ (r.index category).slots, slot.producer.sourceName? ≠ none →
    slot.identifier ∈ (BuiltinLibrary.registry : Registry Id).identifiers category

/-- There is an artifact for a definition unless it is an import that the library does not have. -/
theorem exists_realize_iff {c : Config} {e : Entry} {d : Definition Id} (h : d.origin = e.origin c) :
    (∃ a, Id.run (Slot.realize d.category (Slot.ofDefinition d)) = some a) ↔
      ((Slot.ofDefinition d).producer.sourceName? ≠ none →
        d.identifier ∈ (BuiltinLibrary.registry : Registry Id).identifiers d.category) := by
  unfold Entry.origin at h
  -- what is built is always there, and what is imported is asked of the library
  split at h
  · have hbuilt : (Slot.ofDefinition d).producer.sourceName? = none := by
      simp [Slot.ofDefinition, Producer.ofDefinition, h, Producer.sourceName?]
    constructor
    · intro _ himport
      exact absurd hbuilt himport
    · intro _
      exact ⟨_, Slot.realize_of_plain h⟩
  · have himported : (Slot.ofDefinition d).producer =
        .fetch (BuiltinLibrary.source c.schema.builtinSource) d.category d.identifier := by
      simp [Slot.ofDefinition, Producer.ofDefinition, h]
    unfold Slot.realize
    rw [himported, Producer.realize, BuiltinLibrary.exists_find_iff]
    simp [Producer.sourceName?]

theorem Document.exists_materialize_eq_ok_iff {c : Config} {file : String} {doc : Document} :
    (∃ count, Id.run ((doc.registry c file).materialize Slot.realize) = .ok count) ↔
      (doc.registry c file).ImportsKnown := by
  rw [Registry.exists_materialize_eq_ok_iff]
  refine forall_congr' fun category => forall₂_congr fun slot hslot => ?_
  obtain ⟨d, rfl, rfl, e, -, horigin⟩ := exists_definition_of_slot hslot
  exact exists_realize_iff horigin

/-! ## The check -/

/-- The content of a file is UTF-8 that reads as the document. -/
def Document.HeldBy (content : Except DiskFault ByteArray) (doc : Document) : Prop :=
  ∃ bytes text, content = .ok bytes ∧ String.fromUTF8? bytes = some text ∧
    codec.parse text = .ok doc

theorem Document.HeldBy.unique {content : Except DiskFault ByteArray} {doc doc' : Document}
    (h : doc.HeldBy content) (h' : doc'.HeldBy content) : doc = doc' := by
  obtain ⟨bytes, text, rfl, htext, hdoc⟩ := h
  obtain ⟨bytes', text', heq, htext', hdoc'⟩ := h'
  cases heq
  cases htext.symm.trans htext'
  exact Except.ok.inj (hdoc.symm.trans hdoc')

/-- The document passes the check. -/
structure Document.Passes (c : Config) (file : String) (doc : Document) : Prop where
  sources : ∀ e ∈ doc.entries, e.KnowsSource c
  valid : (doc.registry c file).isValid = true
  imports : (doc.registry c file).ImportsKnown

namespace Command

/-- What is loaded from a content. -/
def loadContent [Monad m] (sources : Sources m) (file : String)
    (content : Except DiskFault ByteArray) : Except DocumentFault (Loaded m) :=
  match content with
  | .error fault => .error (.unreadable fault)
  | .ok bytes =>
    match String.fromUTF8? bytes with
    | none => .error (.unreadable .notText)
    | some text => Document.parseFile sources file text

/-- The outcome of the check for a content of the file. -/
def checkContent (c : Config) (file : String) (verbose : Bool)
    (content : Except DiskFault ByteArray) : Outcome :=
  let output := "🔍 Assembling " ++ file ++ "\n"
  match loadContent c.sources file content with
  | .error fault => .failure output ("loading " ++ file ++ ": " ++ explain fault)
  | .ok loaded => checkRegistry output verbose (.assemble c loaded.descriptions loaded.definitions)

section Disk

variable {n : Type → Type} [Monad n] [LawfulMonad n]

theorem load_eq_map [Monad m] (disk : Disk n) (sources : Sources m) (file : String) :
    Document.load disk sources file = loadContent sources file <$> disk.read file := by
  simp only [Document.load, Disk.readText, bind_assoc, map_eq_pure_bind]
  congr 1
  funext content
  cases content with
  | error fault => simp [loadContent]
  | ok bytes =>
    unfold loadContent
    dsimp only
    cases String.fromUTF8? bytes <;> simp

/-- The check reads the file once, and its outcome depends on the content alone. -/
theorem check_eq_map (disk : Disk n) (c : Config) (file : String) (verbose : Bool) :
    check disk c file verbose = checkContent c file verbose <$> disk.read file := by
  simp only [check, assembleFile, load_eq_map, bind_assoc, map_eq_pure_bind, pure_bind]
  congr 1
  funext content
  unfold checkContent
  cases (loadContent c.sources file content : Except DocumentFault (Loaded Id)) <;> simp

end Disk

/-- Something is loaded from a content if and only if it is a document whose sources are known. -/
theorem loadContent_eq_ok_iff [Monad m] {c : Config} {file : String}
    {content : Except DiskFault ByteArray} {loaded : Loaded m} :
    loadContent c.sources file content = .ok loaded ↔
      ∃ doc : Document, doc.HeldBy content ∧ (∀ e ∈ doc.entries, e.KnowsSource c) ∧
        loaded = ⟨doc.definitions c file, doc.descriptions⟩ := by
  simp only [← Document.resolve_sources_eq_ok_iff]
  constructor
  · intro h
    unfold loadContent at h
    split at h
    · cases h
    · rename_i bytes
      split at h
      · cases h
      · rename_i text htext
        unfold Document.parseFile at h
        split at h
        · cases h
        · rename_i doc hdoc
          exact ⟨doc, ⟨bytes, text, rfl, htext, hdoc⟩, h⟩
  · rintro ⟨doc, ⟨bytes, text, rfl, htext, hdoc⟩, hresolve⟩
    simp only [loadContent, htext, Document.parseFile, hdoc]
    exact hresolve

/-- The registry is valid and all its slots can be realized, or the exit code is 1. -/
theorem code_checkRegistry (output : String) (verbose : Bool) (r : Registry Id) :
    (r.isValid = true ∧ (∃ count, Id.run (r.materialize Slot.realize) = .ok count) ∧
        (checkRegistry output verbose r).code = 0) ∨
      (¬ (r.isValid = true ∧ ∃ count, Id.run (r.materialize Slot.realize) = .ok count) ∧
        (checkRegistry output verbose r).code = 1) := by
  unfold checkRegistry
  cases hmaterialize : Id.run (r.materialize Slot.realize) with
  | error missing => exact .inr ⟨by simp, rfl⟩
  | ok count =>
    cases hvalid : r.isValid with
    | false => exact .inr ⟨by simp, rfl⟩
    | true => exact .inl ⟨rfl, ⟨count, rfl⟩, rfl⟩

/-- Findings are printed, whether or not the slots can be realized. -/
theorem exists_listing_checkRegistry (output : String) (verbose : Bool) {r : Registry Id}
    (h : r.isValid = false) : ∃ before after,
      (checkRegistry output verbose r).output =
        before ++ Diagnostic.listing r.diagnostics ++ after := by
  have hlines : findingLines r = "❌ " ++ toString r.diagnostics.length ++ " error(s):\n" ++
      Diagnostic.listing r.diagnostics ++ "\n" := by
    simp [findingLines, h]
  refine ⟨output ++ countLine r ++ (if verbose then registrationLines r else "") ++
    ("❌ " ++ toString r.diagnostics.length ++ " error(s):\n"), "\n", ?_⟩
  unfold checkRegistry
  rw [hlines, h]
  cases Id.run (r.materialize Slot.realize) <;> simp [Outcome.failure, String.append_assoc]

theorem loadContent_of_heldBy [Monad m] {c : Config} (file : String)
    {content : Except DiskFault ByteArray} {doc : Document} (hheld : doc.HeldBy content)
    (hsources : ∀ e ∈ doc.entries, e.KnowsSource c) :
    loadContent c.sources file content =
      .ok (⟨doc.definitions c file, doc.descriptions⟩ : Loaded m) :=
  loadContent_eq_ok_iff.2 ⟨doc, hheld, hsources, rfl⟩

/-- For a document whose sources are known the check goes on to its registry. -/
theorem checkContent_of_heldBy {c : Config} {file : String} {verbose : Bool}
    {content : Except DiskFault ByteArray} {doc : Document} (hheld : doc.HeldBy content)
    (hsources : ∀ e ∈ doc.entries, e.KnowsSource c) :
    checkContent c file verbose content =
      checkRegistry ("🔍 Assembling " ++ file ++ "\n") verbose (doc.registry c file) := by
  simp only [checkContent, loadContent_of_heldBy file hheld hsources]
  rfl

/-- The exit code of the check: 0 if the content is a document that passes, else 1. -/
theorem code_checkContent (c : Config) (file : String) (verbose : Bool)
    (content : Except DiskFault ByteArray) :
    ((∃ doc : Document, doc.HeldBy content ∧ doc.Passes c file) →
        (checkContent c file verbose content).code = 0) ∧
      ((¬ ∃ doc : Document, doc.HeldBy content ∧ doc.Passes c file) →
        (checkContent c file verbose content).code = 1) := by
  cases hload : (loadContent c.sources file content : Except DocumentFault (Loaded Id)) with
  | error fault =>
    refine ⟨?_, fun _ => ?_⟩
    · rintro ⟨doc, hheld, hpasses⟩
      cases hload.symm.trans (loadContent_of_heldBy file hheld hpasses.sources)
    · simp only [checkContent, hload]
      rfl
  | ok loaded =>
    obtain ⟨doc, hheld, hsources, -⟩ := loadContent_eq_ok_iff.1 hload
    rw [checkContent_of_heldBy hheld hsources]
    have hpasses : (∃ doc : Document, doc.HeldBy content ∧ doc.Passes c file) ↔
        (doc.registry c file).isValid = true ∧
          ∃ count, Id.run ((doc.registry c file).materialize Slot.realize) = .ok count := by
      rw [Document.exists_materialize_eq_ok_iff]
      constructor
      · -- a content holds one document at most, so it is the one that was loaded
        rintro ⟨doc', hheld', hpasses⟩
        obtain rfl := hheld.unique hheld'
        exact ⟨hpasses.valid, hpasses.imports⟩
      · rintro ⟨hvalid, himports⟩
        exact ⟨doc, hheld, hsources, hvalid, himports⟩
    rw [hpasses]
    rcases code_checkRegistry ("🔍 Assembling " ++ file ++ "\n") verbose (doc.registry c file) with
      ⟨hvalid, hcount, hcode⟩ | ⟨hfails, hcode⟩
    · exact ⟨fun _ => hcode, fun h => absurd ⟨hvalid, hcount⟩ h⟩
    · exact ⟨fun h => absurd h hfails, fun _ => hcode⟩

end Command

open Command (Invocation Action checkContent)

/-- Asked to check a file under a configuration that loads, the command reads the file and ends with an
outcome that depends on the content alone. The exit code is 0 if and only if the content is UTF-8 that
reads as a document which passes the check; otherwise it is 1. If a document has no unknown source and its
registry has findings, all of them are printed in full, also if an import is missing besides. -/
theorem check_exits_by_verdict {n : Type → Type} [Monad n] [LawfulMonad n] (disk : Disk n)
    (env : Environment) {arguments : List String} {configFile : Option String} {file : String}
    {verbose : Bool}
    (harguments : Invocation.ofArguments arguments = .ok ⟨configFile, .check file verbose⟩) :
    Command.run disk env arguments = (do
        match ← Config.load disk env configFile with
        | .error fault => return .failure "" ("loading configuration: " ++ fault.message)
        | .ok c => return checkContent c file verbose (← disk.read file)) ∧
      ∀ (c : Config) (content : Except DiskFault ByteArray),
        ((checkContent c file verbose content).code = 0 ↔
          ∃ doc : Document, doc.HeldBy content ∧ doc.Passes c file) ∧
        ((¬ ∃ doc : Document, doc.HeldBy content ∧ doc.Passes c file) →
          (checkContent c file verbose content).code = 1) ∧
        ∀ doc : Document, doc.HeldBy content → (∀ e ∈ doc.entries, e.KnowsSource c) →
          (doc.registry c file).isValid = false → ∃ before after,
            (checkContent c file verbose content).output =
              before ++ Diagnostic.listing (doc.registry c file).diagnostics ++ after := by
  refine ⟨?_, ?_⟩
  · unfold Command.run
    rw [harguments]
    refine bind_congr fun loaded => ?_
    cases loaded with
    | error fault => rfl
    | ok c => exact (Command.check_eq_map disk c file verbose).trans (map_eq_pure_bind _ _)
  · intro c content
    obtain ⟨hpass, hfail⟩ := Command.code_checkContent c file verbose content
    refine ⟨⟨?_, hpass⟩, hfail, ?_⟩
    · intro hcode
      by_contra hnone
      rw [hfail hnone] at hcode
      cases hcode
    · intro doc hheld hsources hinvalid
      rw [Command.checkContent_of_heldBy hheld hsources]
      exact Command.exists_listing_checkRegistry _ verbose hinvalid

/-- A text that imports the scalar `id` from the built-in library. -/
def scalarImport : String := "\x7b\"definitions\": [
  \x7b\"category\": \"type\", \"identifier\": \"id\", \"name\": \"ID\", \"source\": \"builtins\"\x7d]\x7d"

/-- A text that imports a directive `id`, which the library does not have, and declares another one. -/
def directiveImport : String := "\x7b\"definitions\": [
  \x7b\"category\": \"directive\", \"identifier\": \"id\", \"name\": \"id\",
    \"source\": \"builtins\"\x7d,
  \x7b\"category\": \"directive\", \"identifier\": \"id\", \"name\": \"id\"\x7d]\x7d"

/-- The document of the first text. -/
def scalarDocument : Document :=
  { entries := [{ category := .type, identifier := "id", name := "ID", source := some "builtins" }] }

/-- The document of the second text. -/
def directiveDocument : Document :=
  { entries := [
      { category := .directive, identifier := "id", name := "id", source := some "builtins" },
      { category := .directive, identifier := "id", name := "id" }] }

theorem Document.heldBy_toUTF8 {text : String} {doc : Document} (h : codec.parse text = .ok doc) :
    doc.HeldBy (.ok text.toUTF8) := by
  refine ⟨text.toUTF8, text, rfl, ?_, h⟩
  simp [String.fromUTF8?, String.isValidUTF8, String.fromUTF8]

set_option maxRecDepth 4000 in
theorem heldBy_scalarImport : scalarDocument.HeldBy (.ok scalarImport.toUTF8) := by
  apply Document.heldBy_toUTF8
  have hchars : scalarImport.toList = _ := String.toList_ofList
  rw [Json.Codec.parse, Json.Tree.ofText, hchars]
  cbv

set_option maxRecDepth 4000 in
theorem heldBy_directiveImport : directiveDocument.HeldBy (.ok directiveImport.toUTF8) := by
  apply Document.heldBy_toUTF8
  have hchars : directiveImport.toList = _ := String.toList_ofList
  rw [Json.Codec.parse, Json.Tree.ofText, hchars]
  cbv

theorem passes_scalarDocument (file : String) : scalarDocument.Passes {} file where
  sources := by
    intro e he
    obtain rfl := List.mem_singleton.1 he
    exact .inr rfl
  valid := by cbv
  imports := Document.exists_materialize_eq_ok_iff.1 ⟨1, by cbv⟩

theorem isValid_directiveDocument (file : String) :
    (directiveDocument.registry {} file).isValid = false := by cbv

/-- The first text is accepted, and the second one is not. The findings on it are printed, although there
is no artifact for its import. -/
theorem imports_decide_verdict :
    (checkContent {} "schema.json" false (.ok scalarImport.toUTF8)).code = 0 ∧
      (checkContent {} "schema.json" false (.ok directiveImport.toUTF8)).code = 1 ∧
      ∃ before after, (checkContent {} "schema.json" false (.ok directiveImport.toUTF8)).output =
        before ++ Diagnostic.listing (directiveDocument.registry {} "schema.json").diagnostics ++
          after := by
  have harguments : Invocation.ofArguments ["check", "schema.json"] =
      .ok ⟨none, .check "schema.json" false⟩ := by decide
  have hverdict := (check_exits_by_verdict (FileTree.disk (n := Id)) {} harguments).2 {}
  obtain ⟨hpass, -, -⟩ := hverdict (.ok scalarImport.toUTF8)
  obtain ⟨-, hfail, hprinted⟩ := hverdict (.ok directiveImport.toUTF8)
  have hinvalid := isValid_directiveDocument "schema.json"
  refine ⟨hpass.2 ⟨_, heldBy_scalarImport, passes_scalarDocument _⟩, hfail ?_, ?_⟩
  · rintro ⟨doc, hheld, hpasses⟩
    obtain rfl := heldBy_directiveImport.unique hheld
    exact absurd hpasses.valid (by simp [hinvalid])
  · refine hprinted _ heldBy_directiveImport ?_ hinvalid
    intro e he
    simp only [directiveDocument, List.mem_cons, List.not_mem_nil, or_false] at he
    rcases he with rfl | rfl
    · exact .inr rfl
    · exact .inl rfl

end SchemaRegistry
