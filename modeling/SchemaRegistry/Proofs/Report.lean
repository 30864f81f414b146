import SchemaRegistry.Report
import SchemaRegistry.Proofs.Fingerprint
import SchemaRegistry.Proofs.Json.Record

/-!
# Reports as JSON

A report survives its own JSON: the text over several lines is read back as the very same report, which
still verifies, and whoever reads the text as plain data and takes the fingerprint away can compute it
from the rest (`report_survives_json`). The fingerprint, in turn, covers all of the tables: different
tables have different canonical texts (`fingerprint_covers_tables`).

Both rest on the tables being read back from whatever says them, in particular from their text and from
their canonical text, where all keys are sorted (`Tables.faithful_codec`).
-/

namespace SchemaRegistry

open Json (Codec Members Scope Tree Value)

variable {m : Type → Type}

/-! ## The codecs of the tables -/

theorem Location.faithful_codec : Location.codec.Faithful :=
  Codec.Faithful.record (by decide)
    (.required Json.faithful_string <| .required Json.faithful_natural32 .nil) fun _ => rfl

theorem Location.within_codec : Location.codec.Within 1 :=
  Codec.Within.record (by decide) ⟨Json.within_string, Json.within_natural32, trivial⟩

theorem RuleKind.faithful_codec : RuleKind.codec.Faithful := by
  apply Json.faithful_variant
  intro rule
  cases rule <;> rfl

theorem Culprit.faithful_codec : Culprit.codec.Faithful :=
  Codec.Faithful.record (by decide)
    (.required Json.faithful_string <| .required Json.faithful_string .nil) fun _ => rfl

theorem Culprit.within_codec : Culprit.codec.Within 1 :=
  Codec.Within.record (by decide) ⟨Json.within_string, Json.within_string, trivial⟩

theorem Diagnostic.faithful_codec : Diagnostic.codec.Faithful :=
  Codec.Faithful.record (by decide)
    (.required RuleKind.faithful_codec <| .required Location.faithful_codec <|
      .required Culprit.faithful_codec .nil) fun _ => rfl

theorem Diagnostic.within_codec : Diagnostic.codec.Within 2 :=
  Codec.Within.record (by decide)
    ⟨(Json.within_variant RuleKind.name RuleKind.all).mono (Nat.zero_le 1), Location.within_codec,
      Culprit.within_codec, trivial⟩

namespace Tables

theorem faithful_members : members.Faithful :=
  .required Json.faithful_string.map <| .required Json.faithful_string.map <|
    .required Json.faithful_set.map <| .required Json.faithful_set <|
    .required Diagnostic.faithful_codec.list .nil

/-- Tables are read back from every tree that says them. -/
theorem faithful_codec : codec.Faithful :=
  Codec.Faithful.record (by decide) faithful_members fun _ => rfl

theorem within_members : members.Within 3 :=
  ⟨Json.within_string.map.mono (by decide), Json.within_string.map.mono (by decide),
    Json.within_set.map.mono (by decide), Json.within_set.mono (by decide),
    Diagnostic.within_codec.list, trivial⟩

theorem within_codec : codec.Within 4 := Codec.Within.record (by decide) within_members

/-- The canonical text says everything that is in the tables. -/
theorem canonical_inj {t t' : Tables}
    (h : Fingerprint.canonical (codec.write t) = Fingerprint.canonical (codec.write t')) : t = t' := by
  have hread := faithful_codec.parse_sortKeys within_codec (by decide) t
  have hread' := faithful_codec.parse_sortKeys within_codec (by decide) t'
  rw [← Fingerprint.canonical] at hread hread'
  rw [h, hread'] at hread
  exact (Except.ok.inj hread).symm

end Tables

/-! ## The text of a report -/

namespace Report

/-- The members of a report: those of its tables, and the fingerprint. -/
def writtenMembers (r : Report) : List (String × Value) :=
  Tables.members.write (r.tables.types, r.tables.directives, r.tables.implementors, r.tables.exports,
    r.tables.diagnostics, ())

theorem codec_write_eq (r : Report) :
    codec.write r = .object (r.writtenMembers ++ [(fingerprintKey, .text r.fingerprint.text)]) := rfl

theorem tables_write_eq (r : Report) : Tables.codec.write r.tables = .object r.writtenMembers := rfl

theorem ne_fingerprintKey {r : Report} {m : String × Value} (h : m ∈ r.writtenMembers) :
    m.1 ≠ fingerprintKey := by
  have hkeys : ∀ k ∈ Tables.members.keys, k ≠ fingerprintKey := by decide
  exact hkeys m.1 (Members.mem_keys_of_mem_write h)

theorem plain_write (r : Report) : (codec.write r).Plain := by
  obtain ⟨hkeys, hmembers⟩ := (Tables.within_codec r.tables).1
  rw [codec_write_eq]
  constructor
  · -- the tables have no member with the key of the fingerprint
    rw [List.map_append, List.nodup_append]
    refine ⟨hkeys, List.pairwise_singleton _ _, ?_⟩
    intro k hk k' hk' heq
    obtain ⟨m, hm, rfl⟩ := List.mem_map.1 hk
    exact ne_fingerprintKey hm (heq.trans (List.mem_singleton.1 hk'))
  · refine Value.membersPlain_iff.2 ?_
    intro m hm
    rcases List.mem_append.1 hm with hm | hm
    · exact Value.membersPlain_iff.1 hmembers m hm
    · rw [List.mem_singleton.1 hm]
      trivial

theorem depth_write_le (r : Report) : (codec.write r).depth ≤ 4 := by
  have htables : (Value.object r.writtenMembers).depth ≤ 4 := (Tables.within_codec r.tables).2
  have hmembers := Value.membersDepth_le_iff.1 (Nat.le_of_succ_le_succ htables)
  rw [codec_write_eq]
  refine Nat.succ_le_succ (Value.membersDepth_le_iff.2 ?_)
  intro m hm
  rcases List.mem_append.1 hm with hm | hm
  · exact hmembers m hm
  · rw [List.mem_singleton.1 hm]
    exact Nat.zero_le 3

/-- Members that are not the fingerprint are set aside as they are. -/
theorem setAside_written {s : Scope} {ms : List (String × Value)}
    (hkeys : ∀ m ∈ ms, m.1 ≠ fingerprintKey) (hdepth : Value.membersDepth ms ≤ s.depth)
    (kept rest : List (List Json.Piece × Tree)) (fingerprint : Option Fingerprint) :
    setAside s kept fingerprint (Tree.writtenMembers ms ++ rest) =
      setAside s ((Tree.writtenMembers ms).reverse ++ kept) fingerprint rest := by
  induction ms generalizing kept with
  | nil => rfl
  | cons m ms ih =>
    obtain ⟨k, v⟩ := m
    rw [Value.membersDepth, Nat.max_le] at hdepth
    have hkey : ¬ k = fingerprintKey := hkeys (k, v) List.mem_cons_self
    obtain ⟨d, hdata, -⟩ := Json.data_written hdepth.1
    have hrest := ih (fun m hm => hkeys m (List.mem_cons_of_mem _ hm)) hdepth.2
      ((Json.writtenPieces k, Tree.written v) :: kept)
    rw [Tree.writtenMembers, List.cons_append, setAside, Json.spellString_writtenPieces]
    simp only [bind, Except.bind, if_neg hkey, hdata, hrest]
    simp

/-- The fingerprint is read as it comes, and then the members that were set aside are complete. -/
theorem setAside_fingerprint (s : Scope) (kept : List (List Json.Piece × Tree)) (f : Fingerprint) :
    setAside s kept none [(Json.writtenPieces fingerprintKey, .string (Json.writtenPieces f.text))] =
      .ok (kept.reverse, some f) := by
  have hread : Fingerprint.codec.read s (.string (Json.writtenPieces f.text)) = .ok f := by
    change (Json.spellString (Json.writtenPieces f.text)).map Fingerprint.mk = .ok f
    rw [Json.spellString_writtenPieces]
    rfl
  rw [setAside, Json.spellString_writtenPieces]
  simp only [bind, Except.bind, if_true, hread]
  rfl

theorem written_write (r : Report) :
    Tree.written (codec.write r) =
      .object (Tree.writtenMembers r.writtenMembers ++
        [(Json.writtenPieces fingerprintKey, .string (Json.writtenPieces r.fingerprint.text))])
        .closed := by
  rw [codec_write_eq, Tree.written, Tree.writtenMembers_eq_map, Tree.writtenMembers_eq_map,
    List.map_append]
  rfl

/-- A report is read back from its tree. -/
theorem read_written (r : Report) {s : Scope} (hdepth : 4 ≤ s.depth) :
    codec.read s (Tree.written (codec.write r)) = .ok r := by
  obtain ⟨inner, hinner, hle⟩ := Json.Scope.enter_of_lt (n := 3) hdepth
  have hmembers : Value.membersDepth r.writtenMembers ≤ inner.depth :=
    Nat.le_trans (Nat.le_of_succ_le_succ (Tables.within_codec r.tables).2) hle
  have hset := setAside_written (s := inner) (fun m hm => ne_fingerprintKey hm) hmembers []
    [(Json.writtenPieces fingerprintKey, .string (Json.writtenPieces r.fingerprint.text))] none
  rw [setAside_fingerprint, List.append_nil, List.reverse_reverse] at hset
  -- what was set aside is read after the text, with the depth that a buffer starts with
  have htables : Tables.codec.read ⟨127, .buffered⟩
      (.object (Tree.writtenMembers r.writtenMembers) .closed) = .ok r.tables :=
    Tables.faithful_codec r.tables ⟨127, .buffered⟩ _ (Value.saidBy_written _)
      (Nat.le_trans (Tables.within_codec r.tables).2 (by decide))
  have hcodec : codec.read = read := rfl
  rw [written_write, hcodec, read, hinner]
  simp only [bind, Except.bind, hset, checkEnd, Json.ObjectEnd.check, htables]
  rfl

/-- A report is read back from its text over several lines. -/
theorem parse_pretty (r : Report) : codec.parse r.pretty = .ok r := by
  have hread : codec.read .ofText (Tree.written (codec.write r)) = .ok r := read_written r (by decide)
  rw [Codec.parse, pretty, Tree.ofText_pretty (plain_write r)]
  simp only [hread, bind, Except.bind]
  rfl

/-! ## The text of a report as data -/

/-- The members of a report in key order. -/
def sortedMembers (r : Report) : List (String × Value) :=
  Value.sortMembers [] (r.writtenMembers ++ [(fingerprintKey, .text r.fingerprint.text)])

theorem parse_pretty_data (r : Report) :
    ∃ d, Codec.data.parse r.pretty = .ok d ∧ d.value = .object r.sortedMembers := by
  have hdepth : (codec.write r).depth ≤ Scope.ofText.depth :=
    Nat.le_trans (depth_write_le r) (by decide)
  obtain ⟨d, hread, hvalue⟩ := Json.data_written hdepth
  refine ⟨d, ?_, hvalue⟩
  have hcodec : Codec.data.read .ofText (Tree.written (codec.write r)) = .ok d := hread
  rw [Codec.parse, pretty, Tree.ofText_pretty (plain_write r)]
  simp only [hcodec, bind, Except.bind]
  rfl

theorem sortedMembers_eq (r : Report) :
    r.sortedMembers = insertEntry fingerprintKey (.text r.fingerprint.text)
      (Value.sortMembers [] r.writtenMembers) := by
  rw [sortedMembers, Value.sortMembers_append]
  rfl

/-- Without the fingerprint the members are those of the tables, in key order. -/
theorem filter_sortedMembers (r : Report) :
    r.sortedMembers.filter (·.1 ≠ fingerprintKey) = Value.sortMembers [] r.writtenMembers := by
  rw [sortedMembers_eq, filter_insertEntry, List.filter_eq_self]
  intro e he
  have hkeys : (r.writtenMembers.map (·.1)).Nodup := (Tables.within_codec r.tables).1.1
  obtain ⟨m, hm, rfl⟩ := List.mem_map.1 ((Value.sortMembers_nil_perm hkeys).mem_iff.1 he)
  have hne : m.1 ≠ fingerprintKey := ne_fingerprintKey hm
  exact decide_eq_true hne

/-- The fingerprint of the tables can be computed from the data. -/
theorem ofValue_filter_sortedMembers (r : Report) :
    Fingerprint.ofValue (.object (r.sortedMembers.filter (·.1 ≠ fingerprintKey))) =
      r.tables.fingerprint := by
  have hsorted : Value.object (Value.sortMembers [] r.writtenMembers) =
      (Tables.codec.write r.tables).sortKeys := by
    rw [tables_write_eq]
    rfl
  -- the keys are sorted already, and sorting them for the canonical text changes nothing
  rw [filter_sortedMembers, hsorted, Tables.fingerprint, Fingerprint.ofValue, Fingerprint.canonical,
    Value.sortKeys_of_ordered (Value.ordered_sortKeys _)]
  rfl

end Report

/-! ## Main results -/

/-- The text of the report on a registry is read back as this report, which verifies. Read as plain data,
it has the fingerprint under its key, and the fingerprint of what else it has is the same. -/
theorem report_survives_json (r : Registry m) :
    (∃ report, Report.codec.parse (Report.ofRegistry r).pretty = .ok report ∧
      report = Report.ofRegistry r ∧ report.verify = true) ∧
    ∃ d members, Codec.data.parse (Report.ofRegistry r).pretty = .ok d ∧ d.value = .object members ∧
      (Report.fingerprintKey, .text (Report.ofRegistry r).fingerprint.text) ∈ members ∧
      Fingerprint.ofValue (.object (members.filter (·.1 ≠ Report.fingerprintKey))) =
        (Report.ofRegistry r).fingerprint := by
  refine ⟨⟨_, Report.parse_pretty _, rfl, Fingerprint.verifies_ofValue _⟩, ?_⟩
  obtain ⟨d, hparse, hvalue⟩ := Report.parse_pretty_data (Report.ofRegistry r)
  refine ⟨d, _, hparse, hvalue, ?_, Report.ofValue_filter_sortedMembers _⟩
  rw [Report.sortedMembers_eq]
  exact mem_insertEntry_self _ _ _

/-- Different tables have different canonical texts. So if a fingerprint belongs to some tables, it belongs
to other ones only if the hashes of two different contents are the same. -/
theorem fingerprint_covers_tables {t t' : Tables} (h : t ≠ t') :
    Fingerprint.canonical (Tables.codec.write t) ≠ Fingerprint.canonical (Tables.codec.write t') ∧
    Fingerprint.content (Tables.codec.write t) ≠ Fingerprint.content (Tables.codec.write t') ∧
    ∀ f : Fingerprint, (Report.mk t f).verify = true →
      ((Report.mk t' f).verify = true ↔
        Sha256.digest (Fingerprint.content (Tables.codec.write t)) =
          Sha256.digest (Fingerprint.content (Tables.codec.write t'))) := by
  have hcanonical : Fingerprint.canonical (Tables.codec.write t) ≠
      Fingerprint.canonical (Tables.codec.write t') := fun heq => h (Tables.canonical_inj heq)
  refine ⟨hcanonical, ?_, ?_⟩
  · rwa [Ne, Fingerprint.content_eq_iff]
  · intro f hverify
    exact Fingerprint.verifies_iff_digest_eq hverify

/-- Tables with a type and its interface, and tables with the type only. -/
theorem fingerprint_covers_implementors :
    let t : Tables := ⟨.insert ∅ "user" "User", ∅, .insert ∅ "node" (.ofList ["user"]), ∅, []⟩
    let t' : Tables := ⟨.insert ∅ "user" "User", ∅, ∅, ∅, []⟩
    t ≠ t' ∧
      Fingerprint.canonical (Tables.codec.write t) ≠ Fingerprint.canonical (Tables.codec.write t') ∧
      (Report.mk t t.fingerprint).verify = true ∧
      ((Report.mk t' t.fingerprint).verify = true ↔
        Sha256.digest (Fingerprint.content (Tables.codec.write t)) =
          Sha256.digest (Fingerprint.content (Tables.codec.write t'))) := by
  intro t t'
  have hne : t ≠ t' := by decide
  have hverify : (Report.mk t t.fingerprint).verify = true := Fingerprint.verifies_ofValue _
  obtain ⟨hcanonical, -, hcovers⟩ := fingerprint_covers_tables hne
  exact ⟨hne, hcanonical, hverify, hcovers t.fingerprint hverify⟩

end SchemaRegistry
