import SchemaRegistry.Proofs.Assembly
import SchemaRegistry.Proofs.Json.Numerals
import SchemaRegistry.Proofs.Text.Quoted

/-!
# What a listing of findings says

A listing can be taken at its word: whoever reads it knows how many findings there are and what each of
them says (`listing_is_unambiguous`). Its lines are two for each finding, in their order
(`Diagnostic.lines_listing`), and the first of the two says all of the finding
(`Diagnostic.headline_inj`).

The value of a finding is an identifier or a name that an author has chosen, so it may be made up to look
like the rest of a listing. It is quoted, and this is enough. The file is shown as it is, but nothing
follows it except a line number, which has no colon. What is asked of a finding is that its file does not
spread over lines, and that the kind of thing it is about is named without quotes on one line
(`Diagnostic.Presentable`), as it always is by the built-in rules and the registration
(`namedPlainly_of_mem_diagnostics`).
-/

namespace SchemaRegistry

open Text (append_cons_inj)

variable {m : Type → Type}

/-! ## Lines -/

namespace Text

/-- The lines of a text. -/
def lines (s : String) : List String := (s.split '\n').toList.map (·.copy)

theorem lines_intercalate {ls : List String} (h : ∀ l ∈ ls, '\n' ∉ l.toList) (hne : ls ≠ []) :
    lines ("\n".intercalate ls) = ls := by
  have hsingle : "\n" = String.singleton '\n' := rfl
  rw [lines, hsingle, String.toList_split_intercalate h, if_neg hne]

end Text

/-! ## Places -/

theorem not_mem_toDigits {n : Nat} {c : Char} (hc : c.isDigit = false) : c ∉ Nat.toDigits 10 n := by
  intro h
  rw [Json.isDigit_of_mem_toDigits h] at hc
  cases hc

namespace Location

theorem toList_text (l : Location) :
    l.text.toList = l.file.toList ++ ':' :: Nat.toDigits 10 l.line.toNat := by
  simp [text]

/-- The line number stands after the last colon. -/
theorem text_inj {l l' : Location} (h : l.text = l'.text) : l = l' := by
  have hcolon : ∀ n, ':' ∉ (Nat.toDigits 10 n).reverse := by
    intro n hmem
    exact not_mem_toDigits (by decide) (List.mem_reverse.1 hmem)
  have hchars := congrArg (fun s => s.toList.reverse) h
  simp only [toList_text, List.reverse_append, List.reverse_cons, List.append_assoc,
    List.singleton_append] at hchars
  obtain ⟨hline, hfile⟩ := append_cons_inj (hcolon _) (hcolon _) hchars
  obtain ⟨file, line⟩ := l
  obtain ⟨file', line'⟩ := l'
  have hfile : file = file' := String.toList_inj.1 (List.reverse_inj.1 hfile)
  have hdigits := congrArg (Nat.ofDigitChars 10 · 0) (List.reverse_inj.1 hline)
  simp only [Nat.ofDigitChars_ten_toDigits] at hdigits
  have hline : line = line' := UInt32.toNat_inj.1 hdigits
  rw [hfile, hline]

end Location

/-! ## The two lines of a finding -/

theorem RuleKind.code_inj {rule rule' : RuleKind} (h : rule.code = rule'.code) : rule = rule' := by
  revert h
  cases rule <;> cases rule' <;> decide

theorem RuleKind.length_code (rule : RuleKind) : rule.code.toList.length = 4 := by
  cases rule <;> rfl

namespace Diagnostic

/-- The kind of thing that a finding is about is named without quotes and on one line. -/
structure NamedPlainly (d : Diagnostic) : Prop where
  no_quote : '"' ∉ d.culprit.artifact.toList
  no_newline : '\n' ∉ d.culprit.artifact.toList

/-- Neither this name nor the file of the finding gets in the way of the rest. Nothing is asked of the
value. -/
structure Presentable (d : Diagnostic) : Prop where
  named : d.NamedPlainly
  file : '\n' ∉ d.location.file.toList

/-- The first line: the rule, what is wrong, and where. -/
def headline (d : Diagnostic) : String :=
  "[" ++ d.rule.code ++ "] " ++ d.culprit.artifact ++ " " ++ Text.quoted d.culprit.value ++
    " is not valid (" ++ d.location.text ++ ")"

/-- The second line: the rule in words. -/
def reason (d : Diagnostic) : String := "  - " ++ d.rule.explanation

theorem text_eq (d : Diagnostic) : d.text = d.headline ++ "\n" ++ d.reason := by
  have hend : ")\n  - " = ")" ++ "\n" ++ "  - " := rfl
  simp only [text, headline, reason, hend, String.append_assoc]

/-- The first line, cut before the value and after it. -/
theorem toList_headline (d : Diagnostic) :
    d.headline.toList = '[' :: (d.rule.code.toList ++ ([']', ' '] ++
      ((d.culprit.artifact.toList ++ [' ']) ++ '"' ::
        (d.culprit.value.toList.flatMap (Text.quoteChar false) ++ '"' ::
          (" is not valid (".toList ++ (d.location.text.toList ++ [')'])))))) := by
  simp [headline, Text.toList_quoted]

/-- The first line of a finding says all of it. -/
theorem headline_inj {d d' : Diagnostic} (hd : d.NamedPlainly) (hd' : d'.NamedPlainly)
    (h : d.headline = d'.headline) : d = d' := by
  have hquote : ∀ {f : Diagnostic}, f.NamedPlainly → '"' ∉ f.culprit.artifact.toList ++ [' '] := by
    intro f hf
    simpa using hf.no_quote
  have hchars := congrArg String.toList h
  rw [toList_headline, toList_headline] at hchars
  -- the code of the rule has a fixed length, the kind of thing goes to the first quote, the value to its
  -- closing quote, and the place takes up what is left
  obtain ⟨hrule, hchars⟩ := List.append_inj (List.cons.inj hchars).2
    (d.rule.length_code.trans d'.rule.length_code.symm)
  obtain ⟨hartifact, hchars⟩ :=
    append_cons_inj (hquote hd) (hquote hd') (List.append_cancel_left hchars)
  obtain ⟨hvalue, hchars⟩ := Text.flatMap_quoteChar_inj hchars
  have hplace := List.append_cancel_right (List.append_cancel_left hchars)
  obtain ⟨rule, location, ⟨artifact, value⟩⟩ := d
  obtain ⟨rule', location', ⟨artifact', value'⟩⟩ := d'
  obtain rfl : rule = rule' := RuleKind.code_inj (String.toList_inj.1 hrule)
  obtain rfl : artifact = artifact' := String.toList_inj.1 (List.append_cancel_right hartifact)
  obtain rfl : value = value' := String.toList_inj.1 hvalue
  obtain rfl : location = location' := Location.text_inj (String.toList_inj.1 hplace)
  rfl

theorem newline_not_mem_headline {d : Diagnostic} (h : d.Presentable) : '\n' ∉ d.headline.toList := by
  have hcode : '\n' ∉ d.rule.code.toList := by
    cases d.rule <;> decide
  have hline : '\n' ∉ Nat.toDigits 10 d.location.line.toNat := not_mem_toDigits (by decide)
  rw [toList_headline, Location.toList_text]
  simp [hcode, hline, Text.newline_not_mem_quoteChar, h.named.no_newline, h.file]

theorem newline_not_mem_reason (d : Diagnostic) : '\n' ∉ d.reason.toList := by
  unfold reason
  cases d.rule <;> decide +kernel

/-! ## Listings -/

/-- The lines of findings, two for each. -/
def linesOf (ds : List Diagnostic) : List String := ds.flatMap fun d => [d.headline, d.reason]

theorem length_linesOf (ds : List Diagnostic) : (linesOf ds).length = 2 * ds.length := by
  unfold linesOf
  rw [List.length_flatMap]
  simp [Nat.mul_comm]

theorem linesOf_ne_nil {ds : List Diagnostic} (h : ds ≠ []) : linesOf ds ≠ [] := by
  cases ds with
  | nil => exact absurd rfl h
  | cons d ds => exact List.cons_ne_nil _ _

theorem listing_eq (ds : List Diagnostic) : listing ds = "\n".intercalate (linesOf ds) := by
  unfold listing linesOf
  induction ds with
  | nil => rfl
  | cons d ds ih =>
    cases ds with
    | nil => simp [text_eq, String.append_assoc]
    | cons d' ds =>
      rw [List.map_cons, List.map_cons, String.intercalate_cons_cons, ← List.map_cons, ih, text_eq]
      simp [String.append_assoc]

/-- The lines of a listing are those of its findings. -/
theorem lines_listing {ds : List Diagnostic} (hne : ds ≠ []) (h : ∀ d ∈ ds, d.Presentable) :
    Text.lines (listing ds) = linesOf ds := by
  rw [listing_eq, Text.lines_intercalate ?_ (linesOf_ne_nil hne)]
  intro l hl
  obtain ⟨d, hd, hl⟩ := List.mem_flatMap.1 hl
  rcases List.mem_pair.1 hl with rfl | rfl
  · exact newline_not_mem_headline (h d hd)
  · exact newline_not_mem_reason d

theorem linesOf_inj {ds ds' : List Diagnostic} (h : ∀ d ∈ ds, d.NamedPlainly)
    (h' : ∀ d ∈ ds', d.NamedPlainly) (heq : linesOf ds = linesOf ds') : ds = ds' := by
  induction ds generalizing ds' with
  | nil =>
    cases ds' with
    | nil => rfl
    | cons d' ds' => cases heq
  | cons d ds ih =>
    cases ds' with
    | nil => cases heq
    | cons d' ds' =>
      obtain ⟨hd, hds⟩ := List.forall_mem_cons.1 h
      obtain ⟨hd', hds'⟩ := List.forall_mem_cons.1 h'
      obtain ⟨hheadline, hrest⟩ := List.cons.inj heq
      rw [headline_inj hd hd' hheadline, ih hds hds' (List.cons.inj hrest).2]

theorem listing_eq_empty_iff {ds : List Diagnostic} : listing ds = "" ↔ ds = [] := by
  constructor
  · intro h
    cases ds with
    | nil => rfl
    | cons d ds =>
      -- there is a bracket at least
      have hchars := congrArg String.toList h
      rw [listing_eq, linesOf, List.flatMap_cons, List.cons_append, List.cons_append,
        String.intercalate_cons_cons] at hchars
      simp [toList_headline] at hchars
  · rintro rfl
    rfl

theorem listing_inj {ds ds' : List Diagnostic} (h : ∀ d ∈ ds, d.Presentable)
    (h' : ∀ d ∈ ds', d.Presentable) (heq : listing ds = listing ds') : ds = ds' := by
  by_cases hnil : ds = []
  · subst hnil
    exact (listing_eq_empty_iff.1 heq.symm).symm
  · have hnil' : ds' ≠ [] := by
      rintro rfl
      exact hnil (listing_eq_empty_iff.1 heq)
    refine linesOf_inj (fun d hd => (h d hd).named) (fun d hd => (h' d hd).named) ?_
    rw [← lines_listing hnil h, heq, lines_listing hnil' h']

/-! ## Findings of an assembly -/

/-- The kinds of things that findings of an assembly are about. -/
def builtinArtifacts : List String :=
  ["Type identifier", "Type name", "Directive identifier", "Field import", "Field import cycle"]

theorem namedPlainly_of_mem {d : Diagnostic} (h : d.culprit.artifact ∈ builtinArtifacts) :
    d.NamedPlainly := by
  have hall : ∀ artifact ∈ builtinArtifacts, '"' ∉ artifact.toList ∧ '\n' ∉ artifact.toList := by
    decide
  obtain ⟨hquote, hnewline⟩ := hall _ h
  exact ⟨hquote, hnewline⟩

end Diagnostic

open Diagnostic (builtinArtifacts)

/-- A built-in rule adds findings of these kinds only. -/
theorem Rule.artifact_of_mem_check {rule : Rule m} (hrule : rule ∈ Rule.standard) {c : Checked m}
    (h : ∀ f ∈ c.diagnostics, f.culprit.artifact ∈ builtinArtifacts) :
    ∀ f ∈ (rule.check c).diagnostics, f.culprit.artifact ∈ builtinArtifacts := by
  intro f hf
  rcases List.mem_pair.1 hrule with rfl | rfl
  · rcases List.mem_append.1 hf with hf | hf
    · exact h f hf
    · obtain ⟨d, -, hf⟩ := List.mem_flatMap.1 hf
      obtain ⟨i, -, rfl⟩ := List.mem_map.1 hf
      exact (by decide : "Field import" ∈ builtinArtifacts)
  · rcases List.mem_append.1 hf with hf | hf
    · exact h f hf
    · obtain ⟨d, -, rfl⟩ := List.mem_map.1 hf
      exact (by decide : "Field import cycle" ∈ builtinArtifacts)

theorem Rule.artifact_of_mem_runAll {rules : List (Rule m)} (hrules : ∀ rule ∈ rules, rule ∈ Rule.standard)
    (ds : List (Definition m)) :
    ∀ f ∈ (Rule.runAll rules ds).diagnostics, f.culprit.artifact ∈ builtinArtifacts := by
  have hrun : ∀ c : Checked m, (∀ f ∈ c.diagnostics, f.culprit.artifact ∈ builtinArtifacts) →
      ∀ f ∈ (rules.foldl (fun checked rule => rule.check checked) c).diagnostics,
        f.culprit.artifact ∈ builtinArtifacts := by
    induction rules with
    | nil => exact fun c hc => hc
    | cons rule rules ih =>
      intro c hc
      obtain ⟨hrule, hrules⟩ := List.forall_mem_cons.1 hrules
      exact ih hrules _ (artifact_of_mem_check hrule hc)
  exact hrun ⟨ds, []⟩ fun f hf => absurd hf List.not_mem_nil

theorem Definition.artifact_of_mem_findingsFrom {held ds : List (Definition m)} {f : Diagnostic}
    (h : f ∈ findingsFrom held ds) : f.culprit.artifact ∈ builtinArtifacts := by
  induction ds generalizing held with
  | nil => exact absurd h List.not_mem_nil
  | cons d ds ih =>
    rcases List.mem_append.1 h with hf | hf
    · unfold conflictFindings at hf
      rcases List.mem_append.1 hf with hf | hf
      · obtain ⟨-, hf⟩ := List.mem_ite_nil_right.1 hf
        rw [List.mem_singleton.1 hf]
        have hword : ∀ category : Category, category.identifierWord ∈ builtinArtifacts := by
          rintro (_ | _) <;> decide
        exact hword d.category
      · obtain ⟨-, hf⟩ := List.mem_ite_nil_right.1 hf
        rw [List.mem_singleton.1 hf]
        exact (by decide : "Type name" ∈ builtinArtifacts)
    · exact ih hf

/-- All findings of an assembly under built-in rules name plainly what they are about. -/
theorem Registry.namedPlainly_of_mem_diagnostics {schema : SchemaNames} {rules : List (Rule m)}
    (hrules : ∀ rule ∈ rules, rule ∈ Rule.standard) {descriptions : Descriptions}
    {ds : List (Definition m)} {f : Diagnostic}
    (h : f ∈ (assembleWith schema rules descriptions ds).diagnostics) : f.NamedPlainly := by
  have hall : f ∈ (Rule.runAll rules (Definition.prepare schema descriptions ds)).diagnostics ++
      Definition.findingsFrom []
        (Rule.runAll rules (Definition.prepare schema descriptions ds)).definitions := by
    rw [← diagnostics_ofDefinitions schema.builtinSource]
    exact h
  rcases List.mem_append.1 hall with hf | hf
  · exact Diagnostic.namedPlainly_of_mem (Rule.artifact_of_mem_runAll hrules _ f hf)
  · exact Diagnostic.namedPlainly_of_mem (Definition.artifact_of_mem_findingsFrom hf)

/-! ## Main result -/

open Diagnostic (listing linesOf)

/-- Two lists of findings with the same listing are the same, provided that each finding names plainly what
it is about and has a file that stays on one line. The listing of some findings then has two lines for
each, in their order, so nothing in a value can add a finding or hide one. Under built-in rules every
finding of an assembly names plainly what it is about. -/
theorem listing_is_unambiguous :
    (∀ ds ds' : List Diagnostic, (∀ d ∈ ds, d.Presentable) → (∀ d ∈ ds', d.Presentable) →
      listing ds = listing ds' → ds = ds') ∧
    (∀ ds : List Diagnostic, ds ≠ [] → (∀ d ∈ ds, d.Presentable) →
      Text.lines (listing ds) = ds.flatMap (fun d => [d.headline, d.reason]) ∧
        (Text.lines (listing ds)).length = 2 * ds.length) ∧
    ∀ (m : Type → Type) (schema : SchemaNames) (rules : List (Rule m)),
      (∀ rule ∈ rules, rule ∈ Rule.standard) → ∀ (descriptions : Descriptions)
        (definitions : List (Definition m)),
        ∀ d ∈ (Registry.assembleWith schema rules descriptions definitions).diagnostics,
          d.NamedPlainly := by
  refine ⟨fun ds ds' h h' => Diagnostic.listing_inj h h', ?_, ?_⟩
  · intro ds hne h
    have hlines := Diagnostic.lines_listing hne h
    refine ⟨hlines, ?_⟩
    rw [hlines, Diagnostic.length_linesOf]
  · intro m schema rules hrules descriptions definitions d hd
    exact Registry.namedPlainly_of_mem_diagnostics hrules hd

/-- A type with the name of another, chosen so that the finding about it might look like two, -/
def forgery : Diagnostic :=
  ⟨.uniqueNames, ⟨"a:7)", 1⟩,
    ⟨"Type name", "a\" is not valid (a:1)\n  - Fields\n[A003] Field import cycle \"\\u\x7b0\x7d\u0301"⟩⟩

/-- and two findings that it might be taken for. -/
def forged : List Diagnostic :=
  [⟨.uniqueNames, ⟨"a", 1⟩, ⟨"Type name", "a"⟩⟩,
    ⟨.importsAcyclic, ⟨"a:7)", 1⟩, ⟨"Field import cycle", "\x00\u0301"⟩⟩]

/-- It has two lines of its own, and its listing is not that of the two. -/
theorem forgery_is_seen :
    (∀ d ∈ [forgery], d.Presentable) ∧ (∀ d ∈ forged, d.Presentable) ∧
      Text.lines (listing [forgery]) = [forgery.headline, forgery.reason] ∧
      listing [forgery] ≠ listing forged := by
  have hforgery : ∀ d ∈ [forgery], d.Presentable :=
    List.forall_mem_singleton.2 ⟨⟨by decide, by decide⟩, by decide⟩
  have hforged : ∀ d ∈ forged, d.Presentable :=
    List.forall_mem_cons.2 ⟨⟨⟨by decide, by decide⟩, by decide⟩,
      List.forall_mem_singleton.2 ⟨⟨by decide, by decide⟩, by decide⟩⟩
  obtain ⟨hinj, hlines, -⟩ := listing_is_unambiguous
  refine ⟨hforgery, hforged, (hlines [forgery] (List.cons_ne_nil _ _) hforgery).1, ?_⟩
  intro hsame
  have hlength := congrArg List.length (hinj _ _ hforgery hforged hsame)
  cases hlength

end SchemaRegistry
