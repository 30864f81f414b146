import SchemaRegistry.Json.Printer
import SchemaRegistry.Json.Scan

/-!
# Integers in decimal

An integer that is printed can be read back, provided that the text does not go on as a number would
(`Delimited`). All digits are taken and no other character (`scanNumeral_toDigits`), a zero in front
stands alone, and the value of the digits is the integer that was printed.
-/

namespace SchemaRegistry.Json

/-! ## Where a number ends -/

/-- A number in front of this text ends there. -/
def Delimited (rest : List Char) : Prop :=
  ∀ c, rest.head? = some c → c.isDigit = false ∧ c ≠ '.' ∧ c ≠ 'e' ∧ c ≠ 'E'

theorem delimited_nil : Delimited [] := by
  intro c hc
  cases hc

theorem delimited_cons {c : Char} {rest : List Char} :
    Delimited (c :: rest) ↔ c.isDigit = false ∧ c ≠ '.' ∧ c ≠ 'e' ∧ c ≠ 'E' := by
  constructor
  · intro h
    exact h c rfl
  · intro h c' hc'
    obtain rfl := Option.some.inj hc'
    exact h

/-! ## Rows of digits -/

theorem isDigit_of_mem_toDigits {n : Nat} {c : Char} (h : c ∈ Nat.toDigits 10 n) :
    c.isDigit = true :=
  Nat.isDigit_of_mem_toDigits (by decide) (by decide) h

/-- Only the zero begins with a zero. -/
theorem eq_zero_of_head?_toDigits {n : Nat} (h : (Nat.toDigits 10 n).head? = some '0') : n = 0 := by
  induction n using Nat.strongRecOn with
  | ind n ih =>
    rw [Nat.toDigits_eq_if (by decide)] at h
    split at h
    · rename_i hlt
      have hdigits : ∀ d < 10, some (Nat.digitChar d) = some '0' → d = 0 := by decide
      exact hdigits n hlt h
    · -- the first digit is that of `n / 10`, which is not zero
      obtain ⟨c, cs, hcs⟩ := List.exists_cons_of_ne_nil (Nat.toDigits_ne_nil (n := n / 10) (b := 10))
      have hzero := ih (n / 10) (by omega)
      rw [hcs] at h hzero
      have := hzero h
      omega

theorem takeDigits_append {digits rest : List Char} (hdigits : ∀ c ∈ digits, c.isDigit = true)
    (hrest : Delimited rest) : takeDigits (digits ++ rest) = (digits, rest) := by
  have hstop : rest.takeWhile (·.isDigit) = [] ∧ rest.dropWhile (·.isDigit) = rest := by
    cases rest with
    | nil => exact ⟨rfl, rfl⟩
    | cons c rest =>
      have hc := (delimited_cons.1 hrest).1
      simp [hc]
  rw [takeDigits, List.takeWhile_append_of_pos hdigits, List.dropWhile_append_of_pos hdigits,
    hstop.1, hstop.2, List.append_nil]

theorem le_ofDigitChars (digits : List Char) (n : Nat) : n ≤ Nat.ofDigitChars 10 digits n := by
  induction digits generalizing n with
  | nil => exact Nat.le_refl n
  | cons d digits ih =>
    rw [Nat.ofDigitChars_cons]
    exact Nat.le_trans (by omega) (ih _)

/-- As long as 64 bits hold the value, no digit is left out. -/
theorem Numeral.collect_eq {digits : List Char} {n : Nat}
    (h : Nat.ofDigitChars 10 digits n < 0x10000000000000000) :
    Numeral.collect n digits = (Nat.ofDigitChars 10 digits n, 0) := by
  induction digits generalizing n with
  | nil => rfl
  | cons d digits ih =>
    rw [Nat.ofDigitChars_cons] at h
    have hnext := Nat.lt_of_le_of_lt (le_ofDigitChars digits _) h
    rw [Numeral.collect, if_pos hnext, ih h, Nat.ofDigitChars_cons]

/-! ## Numerals without point and exponent -/

theorem scanNumeral_toDigits (negative : Bool) (n : Nat) {rest : List Char} (h : Delimited rest) :
    scanNumeral negative (Nat.toDigits 10 n ++ rest) =
      .ok (⟨negative, Nat.toDigits 10 n, none, none⟩, rest) := by
  have hdigits : scanDigits (Nat.toDigits 10 n ++ rest) = .ok (Nat.toDigits 10 n, rest) := by
    rw [scanDigits, takeDigits_append (fun _ hc => isDigit_of_mem_toDigits hc) h]
    cases hcs : Nat.toDigits 10 n with
    | nil => exact absurd hcs Nat.toDigits_ne_nil
    | cons c cs => rfl
  have hleading : ¬ ((Nat.toDigits 10 n).head? = some '0' ∧ (Nat.toDigits 10 n).length ≠ 1) := by
    rintro ⟨hhead, hlength⟩
    obtain rfl := eq_zero_of_head?_toDigits hhead
    exact hlength rfl
  have hfraction : scanFraction rest = .ok (none, rest) := by
    cases rest with
    | nil => rfl
    | cons c rest =>
      obtain ⟨-, hpoint, -, -⟩ := delimited_cons.1 h
      simp [scanFraction, hpoint]
  have hexponent : scanExponent rest = .ok (none, rest) := by
    cases rest with
    | nil => rfl
    | cons c rest =>
      obtain ⟨-, -, hlower, hupper⟩ := delimited_cons.1 h
      simp [scanExponent, hlower, hupper]
  simp only [scanNumeral, hdigits, hfraction, hexponent, bind, Except.bind, if_neg hleading]
  rfl

/-- The value of the digits of a natural number, if 64 bits hold it. -/
theorem number?_toDigits {n : Nat} (h : n < 0x10000000000000000) :
    Numeral.number? ⟨false, Nat.toDigits 10 n, none, none⟩ =
      some (.integer n (Number.inRange_natCast h)) := by
  have hcollect : Numeral.collect 0 (Nat.toDigits 10 n) = (n, 0) := by
    rw [Numeral.collect_eq] <;> rw [Nat.ofDigitChars_ten_toDigits]
    exact h
  simp [Numeral.number?, hcollect, h]

/-- The value of the digits of a natural number after a minus, if 63 bits hold it. -/
theorem number?_toDigits_negative {n : Nat} (hpos : 0 < n) (h : n ≤ 0x8000000000000000) :
    Numeral.number? ⟨true, Nat.toDigits 10 n, none, none⟩ =
      some (.integer (-n) (Number.inRange_neg_natCast h)) := by
  have hlt : n < 0x10000000000000000 := by omega
  have hcollect : Numeral.collect 0 (Nat.toDigits 10 n) = (n, 0) := by
    rw [Numeral.collect_eq] <;> rw [Nat.ofDigitChars_ten_toDigits]
    exact hlt
  simp [Numeral.number?, hcollect, h, hpos]

/-! ## Scanning -/

theorem scan_digit {c : Char} {cs rest : List Char} {n : Numeral} (hc : c.isDigit = true)
    (h : scanNumeral false (c :: cs) = .ok (n, rest)) :
    scan (c :: cs) = .number n.number? :: scan rest := by
  have hblank : isBlank c = false := by
    simp only [isBlank, decide_eq_false_iff_not]
    rintro (rfl | rfl | rfl | rfl) <;> exact absurd hc (by decide)
  rw [scan, hblank]
  · simp only [Bool.false_eq_true, if_false, if_pos hc]
    split
    · rename_i heq
      rw [h] at heq
      cases heq
      rfl
    · rename_i heq
      rw [h] at heq
      cases heq
  -- none of the other characters that begin a token is a digit
  all_goals
    rintro rfl
    exact absurd hc (by decide)

theorem scan_minus {cs rest : List Char} {n : Numeral} (h : scanNumeral true cs = .ok (n, rest)) :
    scan ('-' :: cs) = .number n.number? :: scan rest := by
  have hblank : isBlank '-' = false := by decide
  rw [scan, hblank]
  simp only [Bool.false_eq_true, if_false]
  split
  · rename_i heq
    rw [h] at heq
    cases heq
    rfl
  · rename_i heq
    rw [h] at heq
    cases heq

theorem scan_toDigits {n : Nat} (hn : n < 0x10000000000000000) {rest : List Char}
    (h : Delimited rest) :
    scan (Nat.toDigits 10 n ++ rest) =
      .number (some (.integer n (Number.inRange_natCast hn))) :: scan rest := by
  have hscan := scanNumeral_toDigits false n h
  obtain ⟨c, cs, hcs⟩ := List.exists_cons_of_ne_nil (Nat.toDigits_ne_nil (n := n) (b := 10))
  have hc : c.isDigit = true := isDigit_of_mem_toDigits (n := n) (by simp [hcs])
  rw [← number?_toDigits hn]
  rw [hcs, List.cons_append] at hscan ⊢
  exact scan_digit hc hscan

/-- The text of an integer scans as that integer. -/
theorem scan_print_integer (n : Int) (hrange : -0x8000000000000000 ≤ n ∧ n < 0x10000000000000000)
    {rest : List Char} (h : Delimited rest) :
    scan ((Number.integer n hrange).print ++ rest) =
      .number (some (.integer n hrange)) :: scan rest := by
  cases n with
  | ofNat n =>
    have htext : toString (Int.ofNat n) = String.ofList (Nat.toDigits 10 n) :=
      Nat.toString_eq_ofList_toDigits
    have hn : n < 0x10000000000000000 := Int.ofNat_lt.1 hrange.2
    rw [Number.print, htext, String.toList_ofList]
    exact scan_toDigits hn h
  | negSucc n =>
    have htext : toString (Int.negSucc n) = "-" ++ String.ofList (Nat.toDigits 10 (n + 1)) :=
      congrArg ("-" ++ ·) Nat.toString_eq_ofList_toDigits
    have hn : n + 1 ≤ 0x8000000000000000 := by
      have := hrange.1
      omega
    have hprint : (Number.integer (Int.negSucc n) hrange).print = '-' :: Nat.toDigits 10 (n + 1) := by
      rw [Number.print, htext]
      simp
    rw [hprint]
    have hscan := scan_minus (scanNumeral_toDigits true (n + 1) h)
    rw [number?_toDigits_negative (Nat.succ_pos n) hn] at hscan
    exact hscan

end SchemaRegistry.Json
