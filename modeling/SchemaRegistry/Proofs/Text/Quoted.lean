import Mathlib.Data.List.Basic
import SchemaRegistry.Text.Quoted

/-!
# Where a quoted text ends

A character inside quotes is written as itself, as a letter after a backslash, or by its number
(`quoteChar_cases`). The three can be told apart by what they begin with, and each says where it ends. So
a quoted text ends at its closing quote and nowhere before, whatever is in it and whatever follows
(`flatMap_quoteChar_inj`), and it stays on one line (`newline_not_mem_quoteChar`).
-/

namespace SchemaRegistry.Text

/-! ## Numbers in base sixteen -/

theorem digitChar_inj {d e : Nat} (hd : d < 16) (he : e < 16) (h : Nat.digitChar d = Nat.digitChar e) :
    d = e := by
  have hall : ∀ d < 16, ∀ e < 16, Nat.digitChar d = Nat.digitChar e → d = e := by decide
  exact hall d hd e he h

theorem mem_hexDigits {n : Nat} {c : Char} (h : c ∈ hexDigits n) : ∃ d < 16, c = Nat.digitChar d := by
  unfold hexDigits at h
  induction n using Nat.strongRecOn with
  | ind n ih =>
    rw [Nat.toDigits_eq_if (by decide)] at h
    split at h
    · rename_i hlt
      exact ⟨n, hlt, List.mem_singleton.1 h⟩
    · rcases List.mem_append.1 h with h | h
      · exact ih (n / 16) (by omega) h
      · exact ⟨n % 16, Nat.mod_lt n (by decide), List.mem_singleton.1 h⟩

theorem not_mem_hexDigits {n : Nat} {c : Char} (hc : ∀ d < 16, c ≠ Nat.digitChar d) :
    c ∉ hexDigits n := by
  intro h
  obtain ⟨d, hd, rfl⟩ := mem_hexDigits h
  exact hc d hd rfl

/-- A number is known by its digits. -/
theorem hexDigits_inj {n k : Nat} (h : hexDigits n = hexDigits k) : n = k := by
  unfold hexDigits at h
  induction n using Nat.strongRecOn generalizing k with
  | ind n ih =>
    have hne : ∀ i, Nat.toDigits 16 i ≠ [] := fun _ => Nat.toDigits_ne_nil
    rw [Nat.toDigits_eq_if (by decide), Nat.toDigits_eq_if (n := k) (by decide)] at h
    split at h <;> split at h
    · rename_i hn hk
      exact digitChar_inj hn hk (List.singleton_inj.1 h)
    · simp [List.cons_eq_append_iff, hne] at h
    · simp [List.append_eq_cons_iff, hne] at h
    · rename_i hn _
      obtain ⟨hinit, hlast⟩ := List.append_inj' h rfl
      have hquotient := ih (n / 16) (by omega) hinit
      have hremainder := digitChar_inj (Nat.mod_lt n (by decide)) (Nat.mod_lt k (by decide))
        (List.singleton_inj.1 hlast)
      omega

/-! ## One character -/

/-- The character that a letter after a backslash stands for in a quoted text. -/
def marked? : Char → Option Char
  | '"' => some '"'
  | '\\' => some '\\'
  | '0' => some '\x00'
  | 't' => some '\t'
  | 'n' => some '\n'
  | 'r' => some '\r'
  | _ => none

/-- The three ways of writing a character. -/
theorem quoteChar_cases (c : Char) :
    (quoteChar false c = [c] ∧ c ≠ '"' ∧ c ≠ '\\' ∧ c ≠ '\n') ∨
      (∃ letter, quoteChar false c = ['\\', letter] ∧ marked? letter = some c) ∨
      quoteChar false c = ['\\', 'u', '\x7b'] ++ hexDigits c.toNat ++ ['\x7d'] := by
  unfold quoteChar
  -- one case for each kind of character, in the order in which they are tried
  split
  · subst_vars
    exact .inr (.inl ⟨_, rfl, rfl⟩)
  split
  · subst_vars
    exact .inr (.inl ⟨_, rfl, rfl⟩)
  split
  · subst_vars
    exact .inr (.inl ⟨_, rfl, rfl⟩)
  split
  · subst_vars
    exact .inr (.inl ⟨_, rfl, rfl⟩)
  split
  · subst_vars
    exact .inr (.inl ⟨_, rfl, rfl⟩)
  split
  · subst_vars
    exact .inr (.inl ⟨_, rfl, rfl⟩)
  rename_i hquote hbackslash _ _ hnewline _
  split
  · subst_vars
    exact .inl ⟨rfl, by decide⟩
  split
  · exact .inl ⟨rfl, hquote, hbackslash, hnewline⟩
  · exact .inr (.inr rfl)

/-- A written character does not begin with the closing quote. -/
theorem exists_quoteChar_eq_cons (c : Char) :
    ∃ first rest, quoteChar false c = first :: rest ∧ first ≠ '"' := by
  rcases quoteChar_cases c with ⟨hself, hquote, -⟩ | ⟨letter, hletter, -⟩ | hnumber
  · exact ⟨c, [], hself, hquote⟩
  · exact ⟨'\\', [letter], hletter, by decide⟩
  · exact ⟨'\\', _, hnumber, by decide⟩

theorem newline_not_mem_quoteChar (c : Char) : '\n' ∉ quoteChar false c := by
  rcases quoteChar_cases c with ⟨hself, -, -, hnewline⟩ | ⟨letter, hletter, hmarked⟩ | hnumber
  · rw [hself, List.mem_singleton]
    exact hnewline.symm
  · rw [hletter]
    have hne : letter ≠ '\n' := by
      rintro rfl
      cases hmarked
    simp [hne.symm]
  · rw [hnumber]
    have hdigits : '\n' ∉ hexDigits c.toNat := not_mem_hexDigits (by decide)
    simp [hdigits]

/-- Lists that are the same up to the first occurrence of an element are the same after it. -/
theorem append_cons_inj {α : Type} {a : α} {xs ys rest rest' : List α} (hx : a ∉ xs) (hy : a ∉ ys)
    (h : xs ++ a :: rest = ys ++ a :: rest') : xs = ys ∧ rest = rest' := by
  induction xs generalizing ys with
  | nil =>
    cases ys with
    | nil => exact ⟨rfl, (List.cons.inj h).2⟩
    | cons y ys => exact absurd (List.cons.inj h).1 (List.ne_of_not_mem_cons hy)
  | cons x xs ih =>
    cases ys with
    | nil => exact absurd (List.cons.inj h).1.symm (List.ne_of_not_mem_cons hx)
    | cons y ys =>
      obtain ⟨rfl, htail⟩ := List.cons.inj h
      obtain ⟨rfl, hrest⟩ :=
        ih (List.not_mem_of_not_mem_cons hx) (List.not_mem_of_not_mem_cons hy) htail
      exact ⟨rfl, hrest⟩

/-- A written character says which character it is and where it ends. -/
theorem quoteChar_append_inj {c c' : Char} {rest rest' : List Char}
    (h : quoteChar false c ++ rest = quoteChar false c' ++ rest') : c = c' ∧ rest = rest' := by
  have hu : marked? 'u' = none := rfl
  have hbrace : ∀ n, '\x7d' ∉ hexDigits n := fun n => not_mem_hexDigits (by decide)
  rcases quoteChar_cases c with ⟨hc, -, hslash, -⟩ | ⟨letter, hc, hmarked⟩ | hc <;>
    rcases quoteChar_cases c' with ⟨hc', -, hslash', -⟩ | ⟨letter', hc', hmarked'⟩ | hc' <;>
    rw [hc, hc'] at h <;>
    simp only [List.cons_append, List.nil_append, List.append_assoc, List.cons.injEq] at h
  -- written as itself, as a letter, or by its number: what agrees at the front is written alike
  · exact h
  · exact absurd h.1 hslash
  · exact absurd h.1 hslash
  · exact absurd h.1.symm hslash'
  · obtain ⟨-, rfl, hrest⟩ := h
    exact ⟨Option.some.inj (hmarked.symm.trans hmarked'), hrest⟩
  · obtain ⟨-, rfl, -⟩ := h
    cases hu.symm.trans hmarked
  · exact absurd h.1.symm hslash'
  · obtain ⟨-, rfl, -⟩ := h
    cases hu.symm.trans hmarked'
  · obtain ⟨-, -, -, hdigits⟩ := h
    obtain ⟨hnumber, hrest⟩ := append_cons_inj (hbrace _) (hbrace _) hdigits
    exact ⟨Char.toNat_inj.1 (hexDigits_inj hnumber), hrest⟩

/-! ## Whole texts -/

/-- Whatever is inside the quotes and whatever follows them, both can be read off. -/
theorem flatMap_quoteChar_inj {cs cs' rest rest' : List Char}
    (h : cs.flatMap (quoteChar false) ++ '"' :: rest = cs'.flatMap (quoteChar false) ++ '"' :: rest') :
    cs = cs' ∧ rest = rest' := by
  induction cs generalizing cs' with
  | nil =>
    cases cs' with
    | nil => exact ⟨rfl, (List.cons.inj h).2⟩
    | cons c' cs' =>
      obtain ⟨first, others, hwritten, hquote⟩ := exists_quoteChar_eq_cons c'
      rw [List.flatMap_cons, hwritten] at h
      exact absurd (List.cons.inj h).1.symm hquote
  | cons c cs ih =>
    cases cs' with
    | nil =>
      obtain ⟨first, others, hwritten, hquote⟩ := exists_quoteChar_eq_cons c
      rw [List.flatMap_cons, hwritten] at h
      exact absurd (List.cons.inj h).1 hquote
    | cons c' cs' =>
      rw [List.flatMap_cons, List.flatMap_cons, List.append_assoc, List.append_assoc] at h
      obtain ⟨rfl, htail⟩ := quoteChar_append_inj h
      obtain ⟨rfl, hrest⟩ := ih htail
      exact ⟨rfl, hrest⟩

theorem toList_quoted (s : String) :
    (quoted s).toList = '"' :: (s.toList.flatMap (quoteChar false) ++ ['"']) := by
  rw [quoted, String.toList_ofList, List.cons_append]

end SchemaRegistry.Text
