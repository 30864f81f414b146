import SchemaRegistry.Proofs.Document

/-!
# Resolving a document

A document gives definitions for all of its entries or for none (`resolution_is_all_or_nothing`). It fails
if and only if an entry names a source that there is not, and then the first of them is reported
(`Document.FirstUnknown`), whatever else is in the document. Otherwise each entry becomes a definition
that has everything the entry says (`Entry.Becomes`).

A file is loaded by parsing its text. The two differ in the wording of a text that is no document, and in
the file that a definition is taken to stand in when its entry does not say (`LoadsAs`).
-/

namespace SchemaRegistry

open Json (Fault bind_eq_ok_iff mapM_eq_error_iff)

variable {m : Type → Type}

/-! ## One entry -/

namespace Entry

/-- The entry names a source that is not among the sources. -/
def NamesUnknown (sources : Sources m) (e : Entry) : Prop :=
  ∃ name, e.source = some name ∧ sources.get? name = none

/-- The definition has what the entry says. What the entry does not say about its place is completed by
`file`. -/
structure Becomes [Monad m] (sources : Sources m) (file : String) (e : Entry) (d : Definition m) :
    Prop where
  category : d.category = e.category
  identifier : d.identifier = e.identifier
  name : d.name = e.name
  description : d.description = e.description
  fields : d.fields = e.fields
  interfaces : d.interfaces = e.interfaces
  fieldImports : d.fieldImports = e.fieldImports
  attrs : d.attrs = e.attrs
  file : d.location.file = e.file.getD file
  line : d.location.line = e.line
  exported : d.wish.exported = e.exported
  /-- Without a source it is built. -/
  built : e.source = none → d.origin = .built .plain
  /-- With a source it is imported from the one of that name. -/
  imported : ∀ name, e.source = some name →
    ∃ source, sources.get? name = some source ∧ d.origin = .imported source

variable [Monad m] {sources : Sources m} {file : String} {e : Entry} {d : Definition m}

theorem becomes_iff :
    e.Becomes sources file d ↔ ∃ origin, e.HasOrigin sources origin ∧ e.definition file origin = d := by
  constructor
  · intro h
    refine ⟨d.origin, ?_, ?_⟩
    · unfold HasOrigin
      split
      · exact h.built (by assumption)
      · exact h.imported _ (by assumption)
    · obtain ⟨⟨category, identifier, name, description, fields, interfaces, fieldImports, attrs,
        ⟨dfile, line⟩, ⟨exported⟩⟩, origin⟩ := d
      obtain ⟨rfl, rfl, rfl, rfl, rfl, rfl, rfl, rfl, rfl, rfl, rfl, -, -⟩ := h
      rfl
  · rintro ⟨origin, horigin, rfl⟩
    unfold HasOrigin at horigin
    refine ⟨rfl, rfl, rfl, rfl, rfl, rfl, rfl, rfl, rfl, rfl, rfl, ?_, ?_⟩
    · intro hsource
      rwa [hsource] at horigin
    · intro name hsource
      rwa [hsource] at horigin

theorem resolve_eq_ok_iff_becomes : e.resolve sources file = .ok d ↔ e.Becomes sources file d :=
  resolve_eq_ok_iff.trans becomes_iff.symm

theorem resolve_eq_error_iff {fault : DocumentFault} :
    e.resolve sources file = .error fault ↔
      ∃ name, fault = .unknownSource name ∧ e.source = some name ∧ sources.get? name = none := by
  unfold resolve
  cases e.source with
  | none =>
    constructor
    · intro h
      cases h
    · rintro ⟨name, -, hnone, -⟩
      cases hnone
  | some name =>
    cases hget : sources.get? name with
    | some source =>
      simp only [hget]
      constructor
      · intro h
        cases h
      · rintro ⟨name', -, hname, hnone⟩
        cases hname
        cases hget.symm.trans hnone
    | none =>
      simp only [hget]
      constructor
      · intro h
        cases h
        exact ⟨name, rfl, rfl, hget⟩
      · rintro ⟨name', rfl, hname, -⟩
        cases hname
        rfl

/-- An entry resolves unless it names an unknown source. -/
theorem exists_resolve_eq_ok_iff :
    (∃ d : Definition m, e.resolve sources file = .ok d) ↔ ¬ e.NamesUnknown sources := by
  constructor
  · rintro ⟨d, hd⟩ ⟨name, hname, hnone⟩
    cases hd.symm.trans (resolve_eq_error_iff.2 ⟨name, rfl, hname, hnone⟩)
  · intro hknown
    cases hresolve : e.resolve sources file with
    | ok d => exact ⟨d, rfl⟩
    | error fault =>
      obtain ⟨name, -, hname, hnone⟩ := resolve_eq_error_iff.1 hresolve
      exact absurd ⟨name, hname, hnone⟩ hknown

end Entry

/-! ## The first unknown source -/

namespace Document

/-- Of the entries that name an unknown source the first one names this source. -/
def FirstUnknown (sources : Sources m) (doc : Document) (name : String) : Prop :=
  ∃ before e after, doc.entries = before ++ e :: after ∧
    (∀ e' ∈ before, ¬ e'.NamesUnknown sources) ∧ e.source = some name ∧ sources.get? name = none

theorem FirstUnknown.exists_mem {sources : Sources m} {doc : Document} {name : String}
    (h : doc.FirstUnknown sources name) : ∃ e ∈ doc.entries, e.NamesUnknown sources := by
  obtain ⟨before, e, after, hentries, -, hname, hnone⟩ := h
  refine ⟨e, ?_, name, hname, hnone⟩
  rw [hentries]
  exact List.mem_append_right _ List.mem_cons_self

variable [Monad m] {sources : Sources m} {doc : Document} {file : String}

/-- The fault does not depend on anything but the sources that are named. -/
theorem resolve_eq_error_iff {fault : DocumentFault} :
    doc.resolve sources file = .error fault ↔
      ∃ name, fault = .unknownSource name ∧ doc.FirstUnknown sources name := by
  have hentries : doc.resolve sources file = .error fault ↔
      doc.entries.mapM (Entry.resolve sources file) = .error fault := by
    unfold resolve
    cases doc.entries.mapM (Entry.resolve sources file) <;>
      simp [bind, Except.bind, pure, Except.pure]
  rw [hentries, mapM_eq_error_iff]
  simp only [Entry.exists_resolve_eq_ok_iff, Entry.resolve_eq_error_iff]
  constructor
  · rintro ⟨before, e, after, hsplit, hbefore, name, rfl, hname⟩
    exact ⟨name, rfl, before, e, after, hsplit, hbefore, hname⟩
  · rintro ⟨name, rfl, before, e, after, hsplit, hbefore, hname⟩
    exact ⟨before, e, after, hsplit, hbefore, name, rfl, hname⟩

theorem resolve_eq_ok_iff_becomes {loaded : Loaded m} :
    doc.resolve sources file = .ok loaded ↔
      loaded.descriptions = doc.descriptions ∧
        List.Forall₂ (Entry.Becomes sources file) doc.entries loaded.definitions := by
  rw [resolve_eq_ok_iff, and_comm, eq_comm]
  simp only [Entry.resolve_eq_ok_iff_becomes]

theorem not_namesUnknown_of_resolve {loaded : Loaded m} (h : doc.resolve sources file = .ok loaded)
    {e : Entry} (he : e ∈ doc.entries) : ¬ e.NamesUnknown sources := by
  obtain ⟨k, hk⟩ := List.mem_iff_getElem?.1 he
  obtain ⟨d, -, hd⟩ := exists_getElem?_of_forall₂ (resolve_eq_ok_iff.1 h).1 hk
  exact Entry.exists_resolve_eq_ok_iff.1 ⟨d, hd⟩

theorem exists_resolve_eq_error_iff :
    (∃ fault, doc.resolve sources file = .error fault) ↔
      ∃ e ∈ doc.entries, e.NamesUnknown sources := by
  constructor
  · rintro ⟨fault, hfault⟩
    obtain ⟨name, -, hfirst⟩ := resolve_eq_error_iff.1 hfault
    exact hfirst.exists_mem
  · rintro ⟨e, he, hunknown⟩
    cases hresolve : doc.resolve sources file with
    | error fault => exact ⟨fault, rfl⟩
    | ok loaded => exact absurd hunknown (not_namesUnknown_of_resolve hresolve he)

end Document

/-! ## Texts and files -/

/-- The definitions are the same, or they differ in the file they are taken to stand in. -/
def Definition.SameUpToFile (file file' : String) (d d' : Definition m) : Prop :=
  d' = d ∨ d.location.file = file ∧ d' = { d with location := ⟨file', d.location.line⟩ }

/-- What comes of loading a file from `path`, beside what comes of parsing its text. -/
inductive LoadsAs (path : String) :
    Except DocumentFault (Loaded m) → Except DocumentFault (Loaded m) → Prop where
  | malformed (fault : Fault) : LoadsAs path (.error (.malformed fault)) (.error (.invalid path fault))
  | unknownSource (name : String) :
    LoadsAs path (.error (.unknownSource name)) (.error (.unknownSource name))
  | resolved {ds ds' : List (Definition m)} {descriptions : Descriptions}
    (h : List.Forall₂ (Definition.SameUpToFile "<document>" path) ds ds') :
    LoadsAs path (.ok ⟨ds, descriptions⟩) (.ok ⟨ds', descriptions⟩)

theorem Entry.sameUpToFile_definition {file file' : String} {e : Entry} {origin : Origin m} :
    (e.definition file origin).SameUpToFile file file' (e.definition file' origin) := by
  unfold definition Definition.SameUpToFile
  cases e.file with
  | none => exact .inr ⟨rfl, rfl⟩
  | some given => exact .inl rfl

section Load

variable [Monad m] {sources : Sources m}

/-- An entry has one origin, so its definitions differ in the file at most. -/
theorem Entry.sameUpToFile_of_resolve {file file' : String} {e : Entry} {d d' : Definition m}
    (hd : e.resolve sources file = .ok d) (hd' : e.resolve sources file' = .ok d') :
    d.SameUpToFile file file' d' := by
  obtain ⟨origin, horigin, rfl⟩ := resolve_eq_ok_iff.1 hd
  have hsame := resolve_eq_ok_iff.2 ⟨origin, horigin, (rfl : e.definition file' origin = _)⟩
  rw [← Except.ok.inj (hsame.symm.trans hd')]
  exact sameUpToFile_definition

/-- What is related to the same elements, one by one, is related to each other. -/
theorem forall₂_of_common {α β γ : Type} {R : α → β → Prop} {S : α → γ → Prop} {T : β → γ → Prop}
    {xs : List α} {ys : List β} {zs : List γ} (hys : List.Forall₂ R xs ys)
    (hzs : List.Forall₂ S xs zs) (h : ∀ x y z, R x y → S x z → T y z) : List.Forall₂ T ys zs := by
  induction hys generalizing zs with
  | nil =>
    cases hzs
    exact .nil
  | cons hy _ ih =>
    cases hzs with
    | cons hz hzs => exact .cons (h _ _ _ hy hz) (ih hzs)

theorem Document.loadsAs_resolve (doc : Document) (path : String) :
    LoadsAs path (doc.resolve sources "<document>") (doc.resolve sources path) := by
  cases hparsed : doc.resolve sources "<document>" with
  | error fault =>
    obtain ⟨name, rfl, hfirst⟩ := resolve_eq_error_iff.1 hparsed
    rw [resolve_eq_error_iff.2 ⟨name, rfl, hfirst⟩]
    exact .unknownSource name
  | ok loaded =>
    cases hloaded : doc.resolve sources path with
    | error fault =>
      obtain ⟨e, he, hunknown⟩ := exists_resolve_eq_error_iff.1 ⟨fault, hloaded⟩
      exact absurd hunknown (not_namesUnknown_of_resolve hparsed he)
    | ok loaded' =>
      obtain ⟨ds, descriptions⟩ := loaded
      obtain ⟨ds', descriptions'⟩ := loaded'
      obtain ⟨hall, rfl⟩ := resolve_eq_ok_iff.1 hparsed
      obtain ⟨hall', rfl⟩ := resolve_eq_ok_iff.1 hloaded
      exact .resolved (forall₂_of_common hall hall' fun _ _ _ => Entry.sameUpToFile_of_resolve)

theorem Document.loadsAs_parse (path text : String) :
    LoadsAs path (parse sources text) (parseFile sources path text) := by
  unfold parse parseFile
  cases codec.parse text with
  | error fault => exact .malformed fault
  | ok doc => exact loadsAs_resolve doc path

/-- What is loaded when this was read from the file. -/
def Document.parseRead (sources : Sources m) (path : String) :
    Except DiskFault String → Except DocumentFault (Loaded m)
  | .error fault => .error (.unreadable fault)
  | .ok text => parseFile sources path text

theorem Document.load_eq_bind {n : Type → Type} [Monad n] (disk : Disk n) (path : String) :
    load disk sources path = (do return parseRead sources path (← disk.readText path)) := by
  unfold load
  congr 1
  funext read
  cases read <;> rfl

end Load

/-- Two entries name unknown sources; the one that comes first is reported, and nothing of the entries
beside it is left. -/
example :
    let entry (identifier : String) (source : Option String) : Entry :=
      { category := .type, identifier, name := identifier, source }
    let doc : Document := ⟨∅, [entry "user" none, entry "post" (some "blog"), entry "tag" (some "tags")]⟩
    (doc.resolve (∅ : Sources Id) "schema.json" matches .error (.unknownSource "blog")) = true :=
  rfl

end SchemaRegistry
