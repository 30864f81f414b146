import SchemaRegistry.Document
import SchemaRegistry.Proofs.Json.Data
import SchemaRegistry.Proofs.Report

/-!
# Declarations as JSON

Declarations, artifacts, documents and configurations are read back from what is written of them, over one
line or several, with the members of objects in any order, or from memory (`declarations_survive_json`).

Members are left out in writing only if they say nothing, and each of them is read as just that if it is
not given; a description that is missing, an empty list and attributes that are not there cannot be
confused. This is checked once for every member, as the members are put together to a record. Beyond
that, the attributes of a declaration and what a trigger hands on are arbitrary data. Their numbers have to
be integers, and everything together has to fit into the depth that is read.
-/

namespace SchemaRegistry

open Json (Codec Data faithful_string faithful_boolean faithful_natural32 faithful_set
  neverNull_string neverNull_boolean within_string within_boolean within_natural32 within_set)

/-! ## Places, wishes and imports -/

theorem Category.faithful_codec : Category.codec.Faithful := by
  apply Json.faithful_variant
  intro category
  cases category <;> rfl

theorem ExportWish.faithful_codec : ExportWish.codec.Faithful :=
  Codec.Faithful.record (by decide)
    (.omittable (faithful_boolean.option neverNull_boolean) (fun _ => Option.isNone_iff_eq_none) .nil)
    fun _ => rfl

theorem ExportWish.within_codec : ExportWish.codec.Within 1 :=
  Codec.Within.record (by decide) ⟨within_boolean.option.mono (by decide), trivial⟩

theorem FieldImport.faithful_codec : FieldImport.codec.Faithful :=
  Codec.Faithful.record (by decide)
    (.required faithful_string <| .omittable faithful_string.list (fun _ => List.isEmpty_iff) .nil)
    fun _ => rfl

theorem FieldImport.within_codec : FieldImport.codec.Within 2 :=
  Codec.Within.record (by decide) ⟨within_string.mono (by decide), within_string.list, trivial⟩

/-! ## Fields and artifacts -/

/-- Attributes hold their values. -/
def Attrs.held (attrs : Attrs) : List Data := attrs.values

theorem Attrs.faithful_codec : Attrs.codec.Faithful := Json.faithful_data.map

theorem Attrs.plain_write {attrs : Attrs} (h : Data.AllIntegral attrs.held) :
    (Attrs.codec.write attrs).Plain :=
  Codec.plain_map fun d hd => Json.plain_data (h d hd)

namespace Trigger

/-- A trigger holds what it hands on. -/
def held (t : Trigger) : List Data := [t.config]

theorem faithful_codec : codec.Faithful :=
  Codec.Faithful.record (by decide) (.required faithful_set <| .optional Json.faithful_data .nil)
    fun _ => rfl

theorem plain_write {t : Trigger} (h : Data.AllIntegral t.held) : (codec.write t).Plain :=
  Codec.plain_record (by decide)
    ⟨(within_set t.mutations).1, Json.plain_data (h t.config (List.mem_singleton_self _)), trivial⟩

end Trigger

namespace Field

/-- A field holds what its attributes and triggers hold. -/
def held (f : Field) : List Data := f.attrs.held ++ f.triggers.flatMap Trigger.held

theorem faithful_codec : codec.Faithful :=
  Codec.Faithful.record (by decide)
    (.required faithful_string <| .required faithful_string <|
      .omittable (faithful_string.option neverNull_string) (fun _ => Option.isNone_iff_eq_none) <|
      .omittable Attrs.faithful_codec (fun _ => SortedMap.isEmpty_iff) <|
      .omittable Trigger.faithful_codec.list (fun _ => List.isEmpty_iff) .nil) fun _ => rfl

theorem plain_write {f : Field} (h : Data.AllIntegral f.held) : (codec.write f).Plain := by
  obtain ⟨hattrs, htriggers⟩ := Data.allIntegral_append.1 h
  exact Codec.plain_record (by decide)
    ⟨(within_string f.identifier).1, (within_string f.name).1, (within_string.option f.description).1,
      Attrs.plain_write hattrs,
      Codec.plain_list fun t ht => Trigger.plain_write (Data.allIntegral_flatMap.1 htriggers t ht),
      trivial⟩

theorem plain_writeAll {fields : List Field} (h : Data.AllIntegral (fields.flatMap held)) :
    ((Codec.list codec).write fields).Plain :=
  Codec.plain_list fun f hf => plain_write (Data.allIntegral_flatMap.1 h f hf)

end Field

namespace Artifact

/-- An artifact holds what its fields and attributes hold. -/
def held (a : Artifact) : List Data := a.fields.flatMap Field.held ++ a.attrs.held

theorem faithful_codec : codec.Faithful :=
  Codec.Faithful.record (by decide)
    (.required Category.faithful_codec <| .required faithful_string <| .required faithful_string <|
      .omittable (faithful_string.option neverNull_string) (fun _ => Option.isNone_iff_eq_none) <|
      .omittable Field.faithful_codec.list (fun _ => List.isEmpty_iff) <|
      .omittable faithful_string.list (fun _ => List.isEmpty_iff) <|
      .omittable Attrs.faithful_codec (fun _ => SortedMap.isEmpty_iff) .nil) fun _ => rfl

theorem plain_write {a : Artifact} (h : Data.AllIntegral a.held) : (codec.write a).Plain := by
  obtain ⟨hfields, hattrs⟩ := Data.allIntegral_append.1 h
  exact Codec.plain_record (by decide)
    ⟨trivial, (within_string a.identifier).1, (within_string a.name).1,
      (within_string.option a.description).1, Field.plain_writeAll hfields,
      (within_string.list a.interfaces).1, Attrs.plain_write hattrs, trivial⟩

end Artifact

/-! ## Documents -/

namespace Entry

/-- An entry holds what its fields and attributes hold. -/
def held (e : Entry) : List Data := e.fields.flatMap Field.held ++ e.attrs.held

theorem faithful_codec : codec.Faithful :=
  Codec.Faithful.record (by decide)
    (.required Category.faithful_codec <| .required faithful_string <| .required faithful_string <|
      .optional (faithful_string.option neverNull_string) <| .optional Field.faithful_codec.list <|
      .optional faithful_string.list <| .optional FieldImport.faithful_codec.list <|
      .optional Attrs.faithful_codec <| .optional (faithful_string.option neverNull_string) <|
      .optional (faithful_string.option neverNull_string) <| .optional faithful_natural32 <|
      .optional (faithful_boolean.option neverNull_boolean) .nil) fun _ => rfl

theorem plain_write {e : Entry} (h : Data.AllIntegral e.held) : (codec.write e).Plain := by
  obtain ⟨hfields, hattrs⟩ := Data.allIntegral_append.1 h
  exact Codec.plain_record (by decide)
    ⟨trivial, (within_string e.identifier).1, (within_string e.name).1,
      (within_string.option e.description).1, Field.plain_writeAll hfields,
      (within_string.list e.interfaces).1, (FieldImport.within_codec.list e.fieldImports).1,
      Attrs.plain_write hattrs, (within_string.option e.source).1, (within_string.option e.file).1,
      (within_natural32 e.line).1, (within_boolean.option e.exported).1, trivial⟩

end Entry

namespace Document

/-- A document holds what its entries hold. -/
def held (d : Document) : List Data := d.entries.flatMap Entry.held

theorem faithful_codec : codec.Faithful :=
  Codec.Faithful.record (by decide)
    (.optional faithful_string.map <| .optional Entry.faithful_codec.list .nil) fun _ => rfl

theorem plain_write {d : Document} (h : Data.AllIntegral d.held) : (codec.write d).Plain :=
  Codec.plain_record (by decide)
    ⟨(within_string.map d.descriptions).1,
      Codec.plain_list fun e he => Entry.plain_write (Data.allIntegral_flatMap.1 h e he), trivial⟩

end Document

/-! ## Configurations -/

namespace Config

theorem faithful_schemaCodec : schemaCodec.Faithful :=
  Codec.Faithful.record (by decide)
    (.optional faithful_string <| .optional faithful_string <| .optional faithful_string .nil)
    fun _ => rfl

theorem within_schemaCodec : schemaCodec.Within 1 :=
  Codec.Within.record (by decide) ⟨within_string, within_string, within_string, trivial⟩

theorem faithful_rulesCodec : rulesCodec.Faithful :=
  Codec.Faithful.record (by decide)
    (.optional faithful_boolean <| .optional faithful_boolean .nil) fun _ => rfl

theorem within_rulesCodec : rulesCodec.Within 1 :=
  Codec.Within.record (by decide) ⟨within_boolean, within_boolean, trivial⟩

theorem faithful_codec : codec.Faithful :=
  Codec.Faithful.record (by decide)
    (.optional faithful_schemaCodec <| .optional faithful_rulesCodec .nil) fun _ => rfl

theorem within_codec : codec.Within 2 :=
  Codec.Within.record (by decide) ⟨within_schemaCodec, within_rulesCodec, trivial⟩

end Config

/-! ## All of them -/

/-- Whatever is declared, and whatever documents, artifacts, findings and configurations are made of it:
the value is read back from what is written of it, if the data that it holds are of integers and all is at
most 127 deep. -/
theorem declarations_survive_json :
    Trigger.codec.RoundTrips Trigger.held ∧ Field.codec.RoundTrips Field.held ∧
      Artifact.codec.RoundTrips Artifact.held ∧ Entry.codec.RoundTrips Entry.held ∧
      Document.codec.RoundTrips Document.held ∧
      FieldImport.codec.RoundTrips (fun _ => []) ∧ ExportWish.codec.RoundTrips (fun _ => []) ∧
      Location.codec.RoundTrips (fun _ => []) ∧ Diagnostic.codec.RoundTrips (fun _ => []) ∧
      Config.codec.RoundTrips (fun _ => []) :=
  ⟨Trigger.faithful_codec.roundTrips fun _ => Trigger.plain_write,
    Field.faithful_codec.roundTrips fun _ => Field.plain_write,
    Artifact.faithful_codec.roundTrips fun _ => Artifact.plain_write,
    Entry.faithful_codec.roundTrips fun _ => Entry.plain_write,
    Document.faithful_codec.roundTrips fun _ => Document.plain_write,
    FieldImport.faithful_codec.roundTrips fun i _ => (FieldImport.within_codec i).1,
    ExportWish.faithful_codec.roundTrips fun w _ => (ExportWish.within_codec w).1,
    Location.faithful_codec.roundTrips fun l _ => (Location.within_codec l).1,
    Diagnostic.faithful_codec.roundTrips fun d _ => (Diagnostic.within_codec d).1,
    Config.faithful_codec.roundTrips fun c _ => (Config.within_codec c).1⟩

/-- An artifact that says little: all that it has besides its names is a field with a trigger that hands on
`null`, and an attribute of this field. -/
def sparseArtifact : Artifact :=
  { category := .type, identifier := "user", name := "User", description := none,
    fields := [
      { identifier := "id", name := "id", triggers := [⟨SortedSet.ofList ["create"], .null⟩],
        attrs := SortedMap.empty.insert "range" (.array [.ofNat 0, .ofNat 0xFFFFFFFFFFFFFFFF]) }],
    interfaces := [], attrs := ∅ }

/-- What is not there is not written, but `null` is. -/
theorem write_sparseArtifact : Artifact.codec.write sparseArtifact =
    .object [("category", .text "type"), ("identifier", .text "user"), ("name", .text "User"),
      ("fields", .array [.object [("identifier", .text "id"), ("name", .text "id"),
        ("attrs", .object [("range", .array [.ofNat 0, .ofNat 0xFFFFFFFFFFFFFFFF])]),
        ("triggers", .array [.object [("mutations", .array [.text "create"]), ("config", .null)]])]])] :=
  rfl

theorem sparseArtifact_survives :
    Data.AllIntegral sparseArtifact.held ∧ (Artifact.codec.write sparseArtifact).depth ≤ 127 ∧
      Artifact.codec.parse (Artifact.codec.write sparseArtifact).compact = .ok sparseArtifact := by
  have hheld : Data.AllIntegral sparseArtifact.held := by
    have hlist : sparseArtifact.held =
        [.array [.ofNat 0, .ofNat 0xFFFFFFFFFFFFFFFF], .null] := rfl
    rw [hlist]
    refine List.forall_mem_cons.2 ⟨⟨⟨_, _, rfl⟩, ⟨_, _, rfl⟩, trivial⟩, ?_⟩
    exact List.forall_mem_singleton.2 trivial
  have hdepth : (Artifact.codec.write sparseArtifact).depth ≤ 127 := by
    rw [write_sparseArtifact]
    decide
  obtain ⟨-, -, hartifact, -⟩ := declarations_survive_json
  exact ⟨hheld, hdepth, (hartifact sparseArtifact hheld hdepth).compact⟩

end SchemaRegistry
