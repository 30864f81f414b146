import Mathlib.Data.List.Basic
import SchemaRegistry.Toml.Quoting

/-!
# Strings survive being written in TOML

Whatever the text, the form that is chosen for it can hold it, and reading the written string gives the
text back and stops right behind it (`readString_printString`).

There are two kinds of forms. Between quotes every character is escaped that has to be, so they hold any
text (`readBody_escapeText`); between apostrophes stands the text itself, which is read as it is if the form
suits it (`readBody_line`, `readBody_lines`). Where three marks enclose the text, marks that have been met
are pending: they belong to the text unless they turn out to be the end of the string. What carries the
inductions is that never more than two of them are pending (`StringForm.pending`).
-/

namespace SchemaRegistry.Toml

namespace StringForm

variable {f : StringForm} {state next : StringState} {c : Char} {cs text rest written : List Char}
  {seen : Nat}

/-! ## Steps -/

theorem mark_quotes (multiline : Bool) : mark ⟨true, multiline⟩ = '"' := rfl

theorem mark_cases (f : StringForm) : f.mark = '"' ∨ f.mark = '\'' := by
  rw [mark]
  split
  · exact .inl rfl
  · exact .inr rfl

theorem newline_ne_mark (f : StringForm) : '\n' ≠ f.mark := by
  rcases f.mark_cases with h | h <;> rw [h] <;> decide

theorem return_ne_mark (f : StringForm) : '\r' ≠ f.mark := by
  rcases f.mark_cases with h | h <;> rw [h] <;> decide

theorem fence_line (hf : f.multiline = false) : f.fence = [f.mark] := by
  rw [fence, hf]
  rfl

theorem fence_lines (hf : f.multiline = true) : f.fence = [f.mark, f.mark, f.mark] := by
  rw [fence, hf]
  rfl

theorem exists_fence_eq_cons (f : StringForm) : ∃ marks, f.fence = f.mark :: marks := by
  cases hf : f.multiline with
  | false => exact ⟨_, fence_line hf⟩
  | true => exact ⟨_, fence_lines hf⟩

/-- The string goes on. -/
theorem readBody_proceed (hstep : f.step state c = .proceed written next)
    (hrest : readBody f next cs = some (text, rest)) :
    readBody f state (c :: cs) = some (written ++ text, rest) := by
  rw [readBody, hstep]
  simp only [hrest]
  rfl

/-- The string goes on, and nothing is added to the text yet. -/
theorem readBody_skip (hstep : f.step state c = .proceed [] next)
    (hrest : readBody f next cs = some (text, rest)) : readBody f state (c :: cs) = some (text, rest) :=
  readBody_proceed hstep hrest

/-- What is read when the string goes on. -/
theorem exists_readBody_of_proceed (hstep : f.step state c = .proceed written next)
    (h : readBody f state (c :: cs) = some (text, rest)) :
    ∃ more, readBody f next cs = some (more, rest) ∧ text = written ++ more := by
  rw [readBody, hstep] at h
  obtain ⟨⟨more, rest'⟩, hmore, heq⟩ := Option.bind_eq_some_iff.1 h
  cases heq
  exact ⟨more, hmore, rfl⟩

/-- The state after plain text and some marks. -/
def pending (seen : Nat) : StringState := if seen = 0 then .plain else .marks seen

theorem pending_succ (seen : Nat) : pending (seen + 1) = .marks (seen + 1) := rfl

/-- A further mark is pending. -/
theorem readBody_mark (hf : f.multiline = true) (hseen : seen < 5)
    (hrest : readBody f (pending (seen + 1)) cs = some (text, rest)) :
    readBody f (pending seen) (f.mark :: cs) = some (text, rest) := by
  have hstep : f.step (pending seen) f.mark = .proceed [] (pending (seen + 1)) := by
    cases seen with
    | zero => simp [step, pending, plainStep, hf]
    | succ seen => simp [step, pending, markStep, hseen]
  exact readBody_skip hstep hrest

/-- With another character up to two pending marks turn out to belong to the text. -/
theorem readBody_pending (hc : c ≠ f.mark) (hseen : seen ≤ 2)
    (hstep : f.plainStep c = .proceed written next)
    (hrest : readBody f next cs = some (text, rest)) :
    readBody f (pending seen) (c :: cs) =
      some (List.replicate seen f.mark ++ (written ++ text), rest) := by
  have hpending : f.step (pending seen) c = .proceed (List.replicate seen f.mark ++ written) next := by
    cases seen with
    | zero => exact hstep
    | succ seen =>
      have hfew : ¬ 3 ≤ seen + 1 := by omega
      rw [pending_succ, step, markStep, if_neg fun h => hc h.1, if_neg hfew, hstep, StringStep.after]
  rw [readBody_proceed hpending hrest, List.append_assoc]

/-- Three marks before the end of the line end a string over several lines; the marks that were pending
belong to the text. -/
theorem readBody_fence_lines (hf : f.multiline = true) (hseen : seen ≤ 2) (rest : List Char) :
    readBody f (pending seen) (f.fence ++ '\n' :: rest) =
      some (List.replicate seen f.mark, '\n' :: rest) := by
  have hstop : readBody f (pending (seen + 3)) ('\n' :: rest) =
      some (List.replicate seen f.mark, '\n' :: rest) := by
    rw [pending_succ, readBody, step, markStep, if_neg fun h => f.newline_ne_mark h.1, if_pos (by omega)]
    rfl
  rw [fence_lines hf]
  exact readBody_mark hf (by omega) (readBody_mark hf (by omega) (readBody_mark hf (by omega) hstop))

/-- One mark ends a string on one line. -/
theorem readBody_fence_line (hf : f.multiline = false) (rest : List Char) :
    readBody f .plain (f.fence ++ rest) = some ([], rest) := by
  have hstep : f.step .plain f.mark = .stop := by simp [step, plainStep, hf]
  rw [fence_line hf, List.singleton_append, readBody, hstep]

/-! ## Text between quotes -/

section Quotes

variable {multiline : Bool}

/-- A letter after a backslash. -/
theorem readBody_letter {letter : Char} (hletter : escapedChar? letter = some c) (hseen : seen ≤ 2)
    (hrest : readBody ⟨true, multiline⟩ .plain cs = some (text, rest)) :
    readBody ⟨true, multiline⟩ (pending seen) ('\\' :: letter :: cs) =
      some (List.replicate seen '"' ++ c :: text, rest) := by
  have hstep : step ⟨true, multiline⟩ .backslash letter = .proceed [c] .plain := by
    rw [step, escapeStep, hletter]
  exact readBody_pending (c := '\\') (by simp [mark]) hseen rfl (readBody_proceed hstep hrest)

theorem hexValue?_upperHexDigit (n : Nat) : Text.hexValue? (upperHexDigit n) = some (n % 16) := by
  have hall : ∀ d < 16, Text.hexValue? (Nat.digitChar d).toUpper = some d := by decide
  exact hall (n % 16) (Nat.mod_lt n (by decide))

theorem charOfCode?_toNat (c : Char) : charOfCode? c.toNat = some c := by
  have hvalid : c.toNat.isValidChar := c.valid
  have hchar := Char.ofNat_toNat c
  rw [Char.ofNat, dif_pos hvalid] at hchar
  rw [charOfCode?, dif_pos hvalid, hchar]

theorem lt_of_isControl (h : isControl c = true) : c.toNat < 128 := by
  rcases of_decide_eq_true h with ⟨hlt, -⟩ | rfl
  · have hspace : c.toNat < ' '.toNat := hlt
    exact Nat.lt_trans hspace (by decide)
  · decide

/-- A control by its code point. -/
theorem readBody_code (hc : c.toNat < 128) (hseen : seen ≤ 2)
    (hrest : readBody ⟨true, multiline⟩ .plain cs = some (text, rest)) :
    readBody ⟨true, multiline⟩ (pending seen)
        ('\\' :: 'u' :: '0' :: '0' :: upperHexDigit (c.toNat / 16) :: upperHexDigit c.toNat :: cs) =
      some (List.replicate seen '"' ++ c :: text, rest) := by
  have hhigh : step ⟨true, multiline⟩ (.code 2 0) (upperHexDigit (c.toNat / 16)) =
      .proceed [] (.code 1 (c.toNat / 16)) := by
    have hdigit : c.toNat / 16 % 16 = c.toNat / 16 := by omega
    rw [step, codeStep, hexValue?_upperHexDigit, hdigit]
    simp
  have hlow : step ⟨true, multiline⟩ (.code 1 (c.toNat / 16)) (upperHexDigit c.toNat) =
      .proceed [c] .plain := by
    have hvalue : 16 * (c.toNat / 16) + c.toNat % 16 = c.toNat := by omega
    rw [step, codeStep, hexValue?_upperHexDigit]
    simp only [hvalue, charOfCode?_toNat]
    rfl
  have hdigits : readBody ⟨true, multiline⟩ (.code 4 0)
      ('0' :: '0' :: upperHexDigit (c.toNat / 16) :: upperHexDigit c.toNat :: cs) =
      some (c :: text, rest) :=
    readBody_skip rfl (readBody_skip rfl (readBody_skip hhigh (readBody_proceed hlow hrest)))
  have hletter : step ⟨true, multiline⟩ .backslash 'u' = .proceed [] (.code 4 0) := rfl
  exact readBody_pending (c := '\\') (by simp [mark]) hseen rfl (readBody_skip hletter hdigits)

/-- A character other than a quote, as it is written between quotes. -/
theorem readBody_escapeChar (hc : c ≠ '"') (hseen : seen ≤ 2)
    (hrest : readBody ⟨true, multiline⟩ .plain cs = some (text, rest)) :
    readBody ⟨true, multiline⟩ (pending seen) (escapeChar multiline c ++ cs) =
      some (List.replicate seen '"' ++ c :: text, rest) := by
  unfold escapeChar
  split_ifs with hbackslash hbackspace htab hformfeed hreturn hnewline hlines hcontrol
  · subst hbackslash
    exact readBody_letter rfl hseen hrest
  · subst hbackspace
    exact readBody_letter rfl hseen hrest
  · subst htab
    exact readBody_letter rfl hseen hrest
  · subst hformfeed
    exact readBody_letter rfl hseen hrest
  · subst hreturn
    exact readBody_letter rfl hseen hrest
  · subst hnewline hlines
    exact readBody_pending (newline_ne_mark _) hseen rfl hrest
  · subst hnewline
    exact readBody_letter rfl hseen hrest
  · exact readBody_code (lt_of_isControl hcontrol) hseen hrest
  · have hstep : plainStep ⟨true, multiline⟩ c = .proceed [c] .plain := by
      simp [plainStep, mark_quotes, hc, hbackslash, hnewline, hreturn, hcontrol]
    exact readBody_pending hc hseen hstep hrest

/-- Text between quotes is read back up to the closing quotes. -/
theorem readBody_escapeText (hseen : seen ≤ 2) (hline : multiline = false → seen = 0)
    (cs rest : List Char) :
    readBody ⟨true, multiline⟩ (pending seen)
        (escapeText multiline seen cs ++ (fence ⟨true, multiline⟩ ++ '\n' :: rest)) =
      some (List.replicate seen '"' ++ cs, '\n' :: rest) := by
  induction cs generalizing seen with
  | nil =>
    rw [List.append_nil, escapeText, List.nil_append]
    cases multiline with
    | true => exact readBody_fence_lines rfl hseen rest
    | false =>
      rw [hline rfl]
      exact readBody_fence_line rfl ('\n' :: rest)
  | cons c cs ih =>
    have hplain := ih (Nat.zero_le 2) fun _ => rfl
    rw [escapeText]
    split_ifs with hquote hfew
    · subst hquote
      obtain ⟨rfl, hlt⟩ := hfew
      have hnext := ih (by omega : seen + 1 ≤ 2) (by simp)
      rw [List.replicate_succ', List.append_assoc] at hnext
      exact readBody_mark rfl (by omega) hnext
    · subst hquote
      exact readBody_letter rfl hseen hplain
    · rw [List.append_assoc]
      exact readBody_escapeChar hquote hseen hplain

end Quotes

/-! ## Text between apostrophes -/

section Apostrophes

variable {multiline : Bool}

/-- A character that stands for itself. -/
theorem plainStep_apostrophes (hc : c ≠ '\'') (hline : c = '\n' → multiline = true)
    (hcontrol : ¬ (c ≠ '\n' ∧ isControl c = true)) :
    plainStep ⟨false, multiline⟩ c = .proceed [c] .plain := by
  by_cases hnewline : c = '\n'
  · subst hnewline
    rw [hline rfl]
    rfl
  · have hplain : isControl c = false := by simpa [hnewline] using hcontrol
    have hreturn : c ≠ '\r' := by
      rintro rfl
      cases hplain
    simp [plainStep, mark, hc, hnewline, hreturn, hplain]

/-- Text on one line is read back up to the closing apostrophe. -/
theorem readBody_line (hmark : '\'' ∉ cs) (hnewline : '\n' ∉ cs)
    (hcontrol : ∀ c ∈ cs, ¬ (c ≠ '\n' ∧ isControl c = true)) (rest : List Char) :
    readBody ⟨false, false⟩ .plain (cs ++ (fence ⟨false, false⟩ ++ rest)) = some (cs, rest) := by
  induction cs with
  | nil => exact readBody_fence_line rfl rest
  | cons c cs ih =>
    rw [List.mem_cons, not_or] at hmark hnewline
    obtain ⟨hc, hcs⟩ := List.forall_mem_cons.1 hcontrol
    have hstep : step ⟨false, false⟩ .plain c = .proceed [c] .plain :=
      plainStep_apostrophes (Ne.symm hmark.1) (fun h => absurd h.symm hnewline.1) hc
    exact readBody_proceed hstep (ih hmark.2 hnewline.2 hcs)

/-- Text over several lines is read back up to the closing apostrophes, three of which do not stand in a row
before. -/
theorem readBody_lines (hrun : hasRun '\'' 3 seen cs = false)
    (hcontrol : ∀ c ∈ cs, ¬ (c ≠ '\n' ∧ isControl c = true)) (rest : List Char) :
    readBody ⟨false, true⟩ (pending seen) (cs ++ (fence ⟨false, true⟩ ++ '\n' :: rest)) =
      some (List.replicate seen '\'' ++ cs, '\n' :: rest) := by
  induction cs generalizing seen with
  | nil =>
    have hseen : ¬ 3 ≤ seen := of_decide_eq_false hrun
    rw [List.append_nil]
    exact readBody_fence_lines rfl (by omega) rest
  | cons c cs ih =>
    obtain ⟨hc, hcs⟩ := List.forall_mem_cons.1 hcontrol
    rw [hasRun, Bool.or_eq_false_iff, decide_eq_false_iff_not] at hrun
    obtain ⟨hseen, hrun⟩ := hrun
    by_cases hmark : c = '\''
    · subst hmark
      rw [if_pos rfl] at hrun
      have hnext := ih hrun hcs
      rw [List.replicate_succ', List.append_assoc] at hnext
      exact readBody_mark rfl (by omega) hnext
    · rw [if_neg hmark] at hrun
      have hstep : plainStep ⟨false, true⟩ c = .proceed [c] .plain :=
        plainStep_apostrophes hmark (fun _ => rfl) hc
      exact readBody_pending hmark (by omega) hstep (ih hrun hcs)

end Apostrophes

/-! ## The chosen form -/

/-- The chosen form has escapes or suits the text. -/
theorem ofText_cases (cs : List Char) :
    (ofText cs).escapes = true ∨ (ofText cs).suits cs = true := by
  unfold ofText
  cases hfound : preferred.find? (·.suits cs) with
  | none => exact .inl rfl
  | some f =>
    have hsuits := List.find?_some hfound
    exact .inr hsuits

/-- What stands between the marks is read back, in the form that is chosen for the text. -/
theorem readBody_printBody (cs rest : List Char) :
    readBody (ofText cs) .plain
        ((ofText cs).printBody cs ++ ((ofText cs).fence ++ '\n' :: rest)) =
      some (cs, '\n' :: rest) := by
  have hform := ofText_cases cs
  generalize ofText cs = f at hform ⊢
  obtain ⟨escapes, multiline⟩ := f
  cases escapes with
  | true => exact readBody_escapeText (Nat.zero_le 2) (fun _ => rfl) cs rest
  | false =>
    have hsuits : suits ⟨false, multiline⟩ cs = true := hform.resolve_left Bool.false_ne_true
    simp only [suits, mark, Bool.and_eq_true, Bool.not_eq_true', List.any_eq_false] at hsuits
    obtain ⟨⟨hcontrol, -⟩, hmarks⟩ := hsuits
    have hcontrol : ∀ c ∈ cs, ¬ (c ≠ '\n' ∧ isControl c = true) := by simpa using hcontrol
    cases multiline with
    | true => exact readBody_lines (by simpa using hmarks) hcontrol rest
    | false =>
      have hline : '\'' ∉ cs ∧ '\n' ∉ cs := by simpa using hmarks
      exact readBody_line hline.1 hline.2 hcontrol ('\n' :: rest)

/-- What is read without a line end in it does not begin with one. -/
theorem dropLineEnd_eq_self (hf : f.multiline = true) (htext : '\n' ∉ text)
    (hread : readBody f .plain cs = some (text, rest)) : dropLineEnd cs = cs := by
  have hnewline : f.step .plain '\n' = .proceed ['\n'] .plain := by
    simp [step, plainStep, f.newline_ne_mark, hf]
  have hreturn : f.step .plain '\r' = .proceed [] (.carriage false) := by
    simp [step, plainStep, f.return_ne_mark, hf]
  fun_cases dropLineEnd cs with
  | case1 cs =>
    obtain ⟨more, -, rfl⟩ := exists_readBody_of_proceed hnewline hread
    exact absurd List.mem_cons_self htext
  | case2 cs =>
    obtain ⟨more, hmore, rfl⟩ := exists_readBody_of_proceed hreturn hread
    obtain ⟨more, -, rfl⟩ := exists_readBody_of_proceed rfl hmore
    exact absurd List.mem_cons_self htext
  | case3 => rfl

end StringForm

/-! ## Whole strings -/

/-- A string on one line. After its opening mark there are not two more, or else it would be empty and
the end of the line would be a mark. -/
theorem readString_of_line {f : StringForm} {cs text rest : List Char} (hf : f.multiline = false)
    (hread : f.readBody .plain cs = some (text, '\n' :: rest)) :
    readString (f.mark :: cs) = some (String.ofList text, '\n' :: rest) := by
  have hmarks : ∀ t, cs ≠ f.mark :: f.mark :: t := by
    rintro t rfl
    have hstop : f.step .plain f.mark = .stop := by simp [StringForm.step, StringForm.plainStep, hf]
    rw [StringForm.readBody, hstop] at hread
    have hrest := (Prod.ext_iff.1 (Option.some.inj hread)).2
    exact f.newline_ne_mark (List.cons.inj hrest).1.symm
  obtain ⟨escapes, multiline⟩ := f
  subst hf
  have hline : readLineString (StringForm.mark ⟨escapes, false⟩ :: cs) =
      some (String.ofList text, '\n' :: rest) := by
    have hreader : readLineString (StringForm.mark ⟨escapes, false⟩ :: cs) =
        (StringForm.readBody ⟨escapes, false⟩ .plain cs).bind fun r => some (String.ofList r.1, r.2) := by
      cases escapes <;> rfl
    rw [hreader, hread, Option.bind_some]
  rw [readString]
  · exact hline
  · intro t ht
    obtain ⟨hmark, rfl⟩ := List.cons.inj ht
    exact hmarks t (by rw [hmark])
  · intro t ht
    obtain ⟨hmark, rfl⟩ := List.cons.inj ht
    exact hmarks t (by rw [hmark])

/-- A string over several lines, after the line end behind its opening marks. -/
theorem readString_of_lines {f : StringForm} {cs text rest : List Char} (hf : f.multiline = true)
    (hread : f.readBody .plain (dropLineEnd cs) = some (text, rest)) :
    readString (f.mark :: f.mark :: f.mark :: cs) = some (String.ofList text, rest) := by
  obtain ⟨escapes, multiline⟩ := f
  subst hf
  have hreader : readString (StringForm.mark ⟨escapes, true⟩ :: StringForm.mark ⟨escapes, true⟩ ::
        StringForm.mark ⟨escapes, true⟩ :: cs) =
      (StringForm.readBody ⟨escapes, true⟩ .plain (dropLineEnd cs)).bind fun r =>
        some (String.ofList r.1, r.2) := by
    cases escapes <;> rfl
  rw [hreader, hread, Option.bind_some]

/-- A written string begins with a mark. -/
theorem exists_printString_eq_cons (s : String) :
    ∃ (f : StringForm) (cs : List Char), printString s = f.mark :: cs := by
  obtain ⟨marks, hfence⟩ := (StringForm.ofText s.toList).exists_fence_eq_cons
  exact ⟨StringForm.ofText s.toList, _, by simp only [printString, hfence, List.cons_append]; rfl⟩

/-- A written string is read back up to its end. -/
theorem readString_printString (s : String) (rest : List Char) :
    readString (printString s ++ '\n' :: rest) = some (s, '\n' :: rest) := by
  have hbody := StringForm.readBody_printBody s.toList rest
  simp only [printString, List.append_assoc]
  generalize StringForm.ofText s.toList = f at hbody ⊢
  cases hf : f.multiline with
  | false =>
    have hread := readString_of_line hf hbody
    rw [String.ofList_toList] at hread
    simpa [StringForm.fence_line hf] using hread
  | true =>
    have hfence := StringForm.fence_lines hf
    by_cases hlines : '\n' ∈ s.toList
    · have hread := @readString_of_lines f ('\n' :: _) _ _ hf hbody
      rw [String.ofList_toList] at hread
      simpa [hfence, hlines] using hread
    · have hdrop := StringForm.dropLineEnd_eq_self hf hlines hbody
      rw [← hdrop] at hbody
      have hread := readString_of_lines hf hbody
      rw [String.ofList_toList] at hread
      simpa [hfence, hlines] using hread

end SchemaRegistry.Toml
