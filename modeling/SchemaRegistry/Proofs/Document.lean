import Mathlib
import SchemaRegistry.Document
import SchemaRegistry.Proofs.Json.Object
import SchemaRegistry.Proofs.RuleSwitches

/-!
# Definitions that are read from documents

A document that is read gives one definition for each entry, in the order of the entries
(`Document.resolve_eq_ok_iff`). An entry without a source is built, and an entry with one is imported
from the source of that name.

With the sources of a configuration there is only one source to import from: the built-in library, under
the name that the configuration has for it. The registration asks for the same name, so an import of a
document is never exported by default, whatever the library is called (`Entry.isExported_of_resolve`).
What is exported of a document can thus be read off its text (`exports_of_document`).
-/

namespace SchemaRegistry

open Json (Codec Member Piece Tree Scope ObjectEnd valuesUnder bind_eq_ok_iff
  mapM_eq_ok_iff)

variable {m : Type → Type}

/-- At the position of an element stands what it is related to. -/
theorem exists_getElem?_of_forall₂ {α β : Type} {R : α → β → Prop} {xs : List α} {ys : List β}
    (h : List.Forall₂ R xs ys) {k : Nat} {x : α} (hx : xs[k]? = some x) :
    ∃ y, ys[k]? = some y ∧ R x y := by
  obtain ⟨hk, rfl⟩ := List.getElem?_eq_some_iff.1 hx
  have hk' : k < ys.length := by
    rw [← h.length_eq]
    exact hk
  exact ⟨ys[k], List.getElem?_eq_getElem hk', h.get hk hk'⟩

/-! ## The definition of an entry -/

namespace Entry

/-- Where the definition of an entry comes from. -/
def HasOrigin [Monad m] (sources : Sources m) (e : Entry) (origin : Origin m) : Prop :=
  match e.source with
  | none => origin = .built .plain
  | some name => ∃ source, sources.get? name = some source ∧ origin = .imported source

/-- The definition of an entry, with its origin. -/
def definition (file : String) (e : Entry) (origin : Origin m) : Definition m :=
  { category := e.category, identifier := e.identifier, name := e.name, description := e.description,
    fields := e.fields, interfaces := e.interfaces, fieldImports := e.fieldImports, attrs := e.attrs,
    location := ⟨e.file.getD file, e.line⟩, wish := ⟨e.exported⟩, origin }

theorem resolve_eq_ok_iff [Monad m] {sources : Sources m} {file : String} {e : Entry}
    {d : Definition m} :
    e.resolve sources file = .ok d ↔
      ∃ origin, e.HasOrigin sources origin ∧ e.definition file origin = d := by
  unfold resolve HasOrigin
  cases e.source with
  | none =>
    constructor
    · intro h
      cases h
      exact ⟨_, rfl, rfl⟩
    · rintro ⟨origin, rfl, rfl⟩
      rfl
  | some name =>
    dsimp only
    cases sources.get? name with
    | none =>
      constructor
      · intro h
        cases h
      · rintro ⟨origin, ⟨source, hget, -⟩, -⟩
        cases hget
    | some source =>
      constructor
      · intro h
        cases h
        exact ⟨_, ⟨source, rfl, rfl⟩, rfl⟩
      · rintro ⟨origin, ⟨source', hget, rfl⟩, rfl⟩
        cases hget
        rfl

end Entry

namespace Document

/-- Each entry gives its definition, or there are none at all. -/
theorem resolve_eq_ok_iff [Monad m] {sources : Sources m} {file : String} {doc : Document}
    {loaded : Loaded m} :
    doc.resolve sources file = .ok loaded ↔
      List.Forall₂ (fun e d => Entry.resolve sources file e = .ok d) doc.entries
        loaded.definitions ∧ doc.descriptions = loaded.descriptions := by
  rw [← mapM_eq_ok_iff]
  unfold resolve
  rw [bind_eq_ok_iff]
  constructor
  · rintro ⟨definitions, hall, hloaded⟩
    cases hloaded
    exact ⟨hall, rfl⟩
  · rintro ⟨hall, hdescriptions⟩
    refine ⟨_, hall, ?_⟩
    rw [hdescriptions]
    rfl

theorem parse_eq_ok_iff [Monad m] {sources : Sources m} {text : String} {loaded : Loaded m} :
    parse sources text = .ok loaded ↔
      ∃ doc, codec.parse text = .ok doc ∧ doc.resolve sources "<document>" = .ok loaded := by
  unfold parse
  cases codec.parse text with
  | error fault =>
    constructor
    · intro h
      cases h
    · rintro ⟨doc, hdoc, -⟩
      cases hdoc
  | ok doc =>
    constructor
    · intro h
      exact ⟨doc, rfl, h⟩
    · rintro ⟨doc', hdoc, h⟩
      cases hdoc
      exact h

end Document

/-! ## The export of an entry -/

namespace Entry

/-- The entry asks to be exported, or says nothing about it and is not imported. -/
def AsksForExport (e : Entry) : Prop :=
  e.exported = some true ∨ e.exported = none ∧ e.source = none

instance (e : Entry) : Decidable e.AsksForExport := inferInstanceAs (Decidable (_ ∨ _))

/-- All sources of a configuration have the name that it has for the built-in library. -/
theorem name_of_get?_sources [Monad m] {c : Config} {name : String} {source : Source m}
    (h : c.sources.get? name = some source) : source.name = c.schema.builtinSource := by
  unfold Config.sources at h
  rw [SortedMap.get?_insert] at h
  split at h
  · cases h
    rfl
  · cases h

/-- With the sources of a configuration an entry is imported if and only if it is imported from the
built-in library. -/
theorem HasOrigin.sourceName? [Monad m] {c : Config} {e : Entry} {origin : Origin m}
    (h : e.HasOrigin c.sources origin) :
    origin.sourceName? = if e.source = none then none else some c.schema.builtinSource := by
  unfold HasOrigin at h
  cases hsource : e.source with
  | none =>
    rw [hsource] at h
    subst h
    rfl
  | some name =>
    rw [hsource] at h
    obtain ⟨source, hget, rfl⟩ := h
    exact congrArg some (name_of_get?_sources hget)

/-- The definition of an entry is to be exported if and only if the entry asks for it. -/
theorem isExported_of_resolve [Monad m] {c : Config} {file : String} {e : Entry} {d : Definition m}
    (h : e.resolve c.sources file = .ok d) :
    d.isExported c.schema.builtinSource = true ↔ e.AsksForExport := by
  obtain ⟨origin, horigin, rfl⟩ := resolve_eq_ok_iff.1 h
  have hname := horigin.sourceName?
  unfold AsksForExport
  change e.exported.getD (origin.sourceName? != some c.schema.builtinSource) = true ↔ _
  cases e.exported with
  | some wish => simp
  | none =>
    rw [hname]
    split
    · rename_i hsource
      simp [hsource]
    · rename_i hsource
      simp [hsource]

theorem identifier_of_resolve [Monad m] {sources : Sources m} {file : String} {e : Entry}
    {d : Definition m} (h : e.resolve sources file = .ok d) : d.identifier = e.identifier := by
  obtain ⟨origin, -, rfl⟩ := resolve_eq_ok_iff.1 h
  rfl

end Entry

/-! ## What the text says -/

/-- What the entry says about its export is what the object says that it was read from. -/
structure Entry.ReadFrom (object : List (List Piece × Tree)) (e : Entry) : Prop where
  wish : ∀ b, e.exported = some b ↔ valuesUnder "export" object = [.boolean b]
  no_wish : e.exported = none ↔
    valuesUnder "export" object = [] ∨ valuesUnder "export" object = [.null]
  no_source : e.source = none ↔
    valuesUnder "source" object = [] ∨ valuesUnder "source" object = [.null]

theorem Entry.readFrom_object {s : Scope} {object : List (List Piece × Tree)} {ending : ObjectEnd}
    {e : Entry} (h : Entry.codec.read s (.object object ending) = .ok e) : e.ReadFrom object := by
  obtain ⟨inner, values, htakes, rfl⟩ := Codec.takes_of_read_record (by decide) h
  -- the members in the order of their declaration
  obtain ⟨-, -, -, -, -, -, -, -, hsource, -, -, hexport, -⟩ := htakes
  exact ⟨hexport.eq_some_boolean_iff, hexport.eq_none_iff, hsource.eq_none_iff⟩

/-- The object that a document has at position `k` of its array of definitions, if it is written with
objects. -/
def Document.objectAt? (document : Tree) (k : Nat) : Option (List (List Piece × Tree)) :=
  match document with
  | .object members _ =>
    match valuesUnder "definitions" members with
    | [.array items _] =>
      match items[k]? with
      | some (.object object _) => some object
      | _ => none
    | _ => none
  | _ => none

/-- There is an entry for every object, and it says the same about its export. -/
theorem Document.exists_entry_of_objectAt? {text : String} {doc : Document}
    (h : codec.parse text = .ok doc) {k : Nat} {object : List (List Piece × Tree)}
    (hobject : objectAt? (Tree.ofText text).1 k = some object) :
    ∃ e, doc.entries[k]? = some e ∧ e.ReadFrom object := by
  have hread := Codec.read_of_parse h
  unfold objectAt? at hobject
  split at hobject
  case h_2 => cases hobject
  rename_i members ending htree
  rw [htree] at hread
  split at hobject
  case h_2 => cases hobject
  rename_i items ending' hitems
  split at hobject
  case h_2 => cases hobject
  rename_i object' ending'' hitem
  obtain rfl := Option.some.inj hobject
  obtain ⟨inner, ⟨descriptions, entries, _⟩, htakes, rfl⟩ :=
    Codec.takes_of_read_record (by decide) hread
  obtain ⟨-, hentries, -⟩ := htakes
  change (Member.optional "definitions" (.list Entry.codec) []).Takes inner
    (valuesUnder "definitions" members) entries at hentries
  rw [hitems] at hentries
  cases hentries with
  | given hlist =>
    obtain ⟨s, -, -, hall⟩ := Json.Reader.list_array_eq_ok_iff.1 hlist
    obtain ⟨e, he, hentry⟩ := exists_getElem?_of_forall₂ hall hitem
    exact ⟨e, he, Entry.readFrom_object hentry⟩

/-! ## The exports of a document -/

/-- What becomes of the entries of a document when its definitions are assembled. -/
structure Document.ExportedAsAsked [Monad m] (c : Config) (loaded : Loaded m) (doc : Document) :
    Prop where
  /-- Every entry has its definition. -/
  one_each : List.Forall₂ (fun e d => Entry.resolve c.sources "<document>" e = .ok d) doc.entries
    loaded.definitions
  /-- The rules that are switched on hand on those that are kept. -/
  handed_on : (c.handedOn loaded.descriptions loaded.definitions).map Definition.heading =
    (c.kept loaded.definitions).map Definition.heading
  /-- Exported are the identifiers of the entries among them that ask for it, registered or not. -/
  exported_iff : ∀ x,
    x ∈ (Registry.assemble c loaded.descriptions loaded.definitions).exports ↔
      ∃ (k : Nat) (e : Entry) (d : Definition m), doc.entries[k]? = some e ∧
        loaded.definitions[k]? = some d ∧ c.Keeps loaded.definitions d ∧ e.AsksForExport ∧
        e.identifier = x
  /-- No import is exported by default. -/
  imports_withheld : ∀ (k : Nat) (e : Entry) (d : Definition m), doc.entries[k]? = some e →
    loaded.definitions[k]? = some d → e.source ≠ none → e.exported = none →
    d.isExported c.schema.builtinSource = false

theorem Document.exportedAsAsked [Monad m] {c : Config} {doc : Document} {loaded : Loaded m}
    (h : doc.resolve c.sources "<document>" = .ok loaded) : doc.ExportedAsAsked c loaded := by
  have hall := (resolve_eq_ok_iff.1 h).1
  have hresolves : ∀ (k : Nat) (e : Entry) (d : Definition m), doc.entries[k]? = some e →
      loaded.definitions[k]? = some d → e.resolve c.sources "<document>" = .ok d := by
    intro k e d he hd
    obtain ⟨d', hd', hresolve⟩ := exists_getElem?_of_forall₂ hall he
    rwa [← Option.some.inj (hd.symm.trans hd')] at hresolve
  constructor
  case one_each => exact hall
  case handed_on => exact Config.headings_handedOn c loaded.descriptions loaded.definitions
  case exported_iff =>
    intro x
    rw [Registry.mem_exports_assemble]
    constructor
    · rintro ⟨d, hd, hkept, hexported, rfl⟩
      obtain ⟨k, hk⟩ := List.mem_iff_getElem?.1 hd
      obtain ⟨e, he, hresolve⟩ := exists_getElem?_of_forall₂ hall.flip hk
      exact ⟨k, e, d, he, hk, hkept, (Entry.isExported_of_resolve hresolve).1 hexported,
        (Entry.identifier_of_resolve hresolve).symm⟩
    · rintro ⟨k, e, d, he, hd, hkept, hasks, rfl⟩
      have hresolve := hresolves k e d he hd
      exact ⟨d, List.mem_of_getElem? hd, hkept, (Entry.isExported_of_resolve hresolve).2 hasks,
        Entry.identifier_of_resolve hresolve⟩
  case imports_withheld =>
    intro k e d he hd hsource hwish
    -- neither of the two ways to ask is open to it
    rw [← Bool.not_eq_true, Entry.isExported_of_resolve (hresolves k e d he hd)]
    rintro (hasks | ⟨-, hnone⟩)
    · rw [hwish] at hasks
      cases hasks
    · exact hsource hnone

/-- Whatever the built-in library is called and whichever rules are switched on, the definitions that are
read from a text are exported as their entries ask, and where an entry is written as an object, it asks
by its members `export` and `source`. -/
theorem exports_of_document [Monad m] (c : Config) (text : String) {loaded : Loaded m}
    (hload : Document.parse c.sources text = .ok loaded) :
    ∃ doc, Document.codec.parse text = .ok doc ∧ doc.ExportedAsAsked c loaded ∧
      ∀ (k : Nat) object, Document.objectAt? (Tree.ofText text).1 k = some object →
        ∃ e, doc.entries[k]? = some e ∧ e.ReadFrom object := by
  obtain ⟨doc, hdoc, hresolve⟩ := Document.parse_eq_ok_iff.1 hload
  exact ⟨doc, hdoc, Document.exportedAsAsked hresolve,
    fun k object hobject => Document.exists_entry_of_objectAt? hdoc hobject⟩

/-! ## A library of another name -/

/-- A configuration that has another name for the built-in library. -/
def renamedLibrary : Config := { schema := { builtinSource := "std" } }

/-- A text with an import from this library, a user, an owner that cannot be registered because it has
the name of the user, and a type that imports from itself. -/
def renamedText : String := "\x7b\"definitions\": [
  \x7b\"category\": \"type\", \"identifier\": \"id\", \"name\": \"ID\", \"source\": \"std\"\x7d,
  \x7b\"category\": \"type\", \"identifier\": \"user\", \"name\": \"User\", \"source\": null\x7d,
  \x7b\"category\": \"type\", \"identifier\": \"owner\", \"name\": \"User\"\x7d,
  \x7b\"category\": \"type\", \"identifier\": \"loop\", \"name\": \"Loop\",
    \"field_imports\": [\x7b\"from\": \"loop\"\x7d]\x7d]\x7d"

/-- Its entries. -/
def renamedEntries : List Entry :=
  [{ category := .type, identifier := "id", name := "ID", source := some "std" },
    { category := .type, identifier := "user", name := "User" },
    { category := .type, identifier := "owner", name := "User" },
    { category := .type, identifier := "loop", name := "Loop",
      fieldImports := [{ target := "loop" }] }]

set_option maxRecDepth 4000 in
theorem parse_renamedText : Document.codec.parse renamedText = .ok { entries := renamedEntries } := by
  -- the characters of a literal are known without decoding it
  have hchars : renamedText.toList = _ := String.toList_ofList
  rw [Codec.parse, Tree.ofText, hchars]
  cbv

set_option maxRecDepth 4000 in
theorem source_renamedText :
    (Document.objectAt? (Tree.ofText renamedText).1 1).map (valuesUnder "source") =
      some [.null] := by
  have hchars : renamedText.toList = _ := String.toList_ofList
  rw [Tree.ofText, hchars]
  cbv

/-- Its definitions. -/
def renamedDefinitions : List (Definition Id) :=
  renamedEntries.map fun e => e.definition "<document>" <|
    match e.source with
    | none => .built .plain
    | some name => .imported (BuiltinLibrary.source name)

theorem keeps_renamedDefinitions {k : Nat} {d : Definition Id} (hd : renamedDefinitions[k]? = some d) :
    [true, true, true, false][k]? = some (decide (renamedLibrary.Keeps renamedDefinitions d)) := by
  have hkeeps : renamedDefinitions.map (fun d => decide (renamedLibrary.Keeps renamedDefinitions d)) =
      [true, true, true, false] := by cbv
  rw [← hkeeps, List.getElem?_map, hd, Option.map_some]

/-- Two of the four are exported, one of them without being registered. The import is not, and the last
one is left out. The user has no source, since the text has `null` there. -/
theorem renamed_library_is_withheld :
    ∃ loaded : Loaded Id, Document.parse renamedLibrary.sources renamedText = .ok loaded ∧
      (∀ x, x ∈ (Registry.assemble renamedLibrary loaded.descriptions loaded.definitions).exports ↔
        x = "user" ∨ x = "owner") ∧
      ∃ object e, Document.objectAt? (Tree.ofText renamedText).1 1 = some object ∧
        valuesUnder "source" object = [.null] ∧ renamedEntries[1]? = some e ∧ e.source = none := by
  have hload : Document.parse renamedLibrary.sources renamedText = .ok ⟨renamedDefinitions, ∅⟩ :=
    Document.parse_eq_ok_iff.2 ⟨_, parse_renamedText, rfl⟩
  obtain ⟨doc, hdoc, hlaw, hobjects⟩ := exports_of_document renamedLibrary renamedText hload
  obtain rfl := Except.ok.inj (parse_renamedText.symm.trans hdoc)
  obtain ⟨object, hobject, hsource⟩ := Option.map_eq_some_iff.1 source_renamedText
  obtain ⟨e, he, hread⟩ := hobjects 1 object hobject
  refine ⟨_, hload, fun x => ?_, object, e, hobject, hsource, he, hread.no_source.2 (.inr hsource)⟩
  rw [hlaw.exported_iff]
  constructor
  · rintro ⟨k, e, d, he, hd, hkept, hasks, rfl⟩
    have hflag := keeps_renamedDefinitions hd
    rw [decide_eq_true hkept] at hflag
    rcases k with _ | _ | _ | _ | k
    · -- the import does not ask for it
      cases he
      revert hasks
      decide
    · cases he
      exact .inl rfl
    · cases he
      exact .inr rfl
    · -- the type that imports from itself is not kept
      cases hflag
    · cases he
  · rintro (rfl | rfl)
    · have hd : renamedDefinitions[1]? = some renamedDefinitions[1] := rfl
      have hkept := of_decide_eq_true (Option.some.inj (keeps_renamedDefinitions hd)).symm
      exact ⟨1, _, _, rfl, hd, hkept, .inr ⟨rfl, rfl⟩, rfl⟩
    · have hd : renamedDefinitions[2]? = some renamedDefinitions[2] := rfl
      have hkept := of_decide_eq_true (Option.some.inj (keeps_renamedDefinitions hd)).symm
      exact ⟨2, _, _, rfl, hd, hkept, .inr ⟨rfl, rfl⟩, rfl⟩

end SchemaRegistry
