import SchemaRegistry.Json.Printer
import SchemaRegistry.Json.Reader

/-!
# Strings in their quotes

A string that is printed can be read back: each character is written in a form that scans as one piece
(`scanString_escapeChar`) and that piece spells the character (`spell_map_writtenPiece`). So whatever is
in a string, quotes, backslashes, controls and characters outside ASCII, its quoted form ends at the
closing quote and nowhere before (`scanString_flatMap_escapeChar`).
-/

namespace SchemaRegistry.Json

open Text (hexDigit hexValue?)

/-! ## Hexadecimal digits -/

theorem hexValue?_hexDigit (n : Nat) : hexValue? (hexDigit n) = some (n % 16) := by
  have hdigits : ∀ d < 16, hexValue? (Nat.digitChar d) = some d := by decide
  exact hdigits (n % 16) (Nat.mod_lt n (by decide))

/-! ## One character -/

/-- A control that is written by its number, because no letter stands for it. -/
def isNumbered (c : Char) : Bool :=
  c < ' ' ∧ c ≠ '\x08' ∧ c ≠ '\x0c' ∧ c ≠ '\n' ∧ c ≠ '\r' ∧ c ≠ '\t'

/-- The piece that the written form of a character scans as. -/
def writtenPiece (c : Char) : Piece := if isNumbered c then .unit c.toNat else .char c

/-- A character that is written as itself is scanned as itself. -/
theorem scanString_self {c : Char} (hquote : c ≠ '"') (hbackslash : c ≠ '\\') (hcontrol : ¬ c < ' ')
    (rest : List Char) : scanString (c :: rest) = (scanString rest).after (.char c) := by
  rw [scanString, if_neg hcontrol]
  all_goals grind

/-- The four digits of a control scan as its number. -/
theorem scanString_unit {c : Char} (h : c < ' ') (rest : List Char) :
    scanString ('\\' :: 'u' :: '0' :: '0' :: hexDigit (c.toNat / 16) :: hexDigit c.toNat :: rest) =
      (scanString rest).after (.unit c.toNat) := by
  have hlt : c.toNat < 32 := h
  have hvalue : ((0 * 16 + 0) * 16 + c.toNat / 16 % 16) * 16 + c.toNat % 16 = c.toNat := by omega
  have hzero : hexValue? '0' = some 0 := rfl
  rw [scanString]
  simp only [hexValue?_hexDigit, hzero, hvalue]

theorem scanString_escapeChar (c : Char) (rest : List Char) :
    scanString (escapeChar c ++ rest) = (scanString rest).after (writtenPiece c) := by
  unfold escapeChar
  -- one case for each kind of written form, in the order in which the printer tries them
  split
  · subst_vars; rfl
  split
  · subst_vars; rfl
  split
  · subst_vars; rfl
  split
  · subst_vars; rfl
  split
  · subst_vars; rfl
  split
  · subst_vars; rfl
  split
  · subst_vars; rfl
  split
  · rename_i hcontrol
    have hnumbered : isNumbered c = true := by simp [isNumbered, *]
    rw [writtenPiece, if_pos hnumbered]
    exact scanString_unit hcontrol rest
  · rename_i hquote hbackslash _ _ _ _ _ hcontrol
    have hnumbered : isNumbered c = false := by simp [isNumbered, hcontrol]
    rw [writtenPiece, if_neg (Bool.eq_false_iff.1 hnumbered)]
    exact scanString_self hquote hbackslash hcontrol rest

/-! ## Whole strings -/

/-- The pieces that the written form of a string scans as. -/
def writtenPieces (s : String) : List Piece := s.toList.map writtenPiece

theorem scanString_flatMap_escapeChar (cs rest : List Char) :
    scanString (cs.flatMap escapeChar ++ '"' :: rest) = .closed (cs.map writtenPiece) rest := by
  induction cs with
  | nil => rfl
  | cons c cs ih =>
    rw [List.flatMap_cons, List.append_assoc, scanString_escapeChar, ih]
    rfl

theorem spell_cons_writtenPiece (c : Char) (pieces : List Piece) :
    spell none (writtenPiece c :: pieces) = (spell none pieces).map (c :: ·) := by
  unfold writtenPiece
  split
  · rename_i hnumbered
    have hlt : c.toNat < 32 := by
      simp only [isNumbered, decide_eq_true_eq] at hnumbered
      exact hnumbered.1
    -- a control is no half of a surrogate pair
    have hlow : isLowSurrogate c.toNat = false := decide_eq_false (by omega)
    have hhigh : isHighSurrogate c.toNat = false := decide_eq_false (by omega)
    simp [spell.eq_def none (.unit c.toNat :: pieces), hlow, hhigh, Char.ofNat_toNat]
  · rfl

theorem spell_map_writtenPiece (cs : List Char) : spell none (cs.map writtenPiece) = .ok cs := by
  induction cs with
  | nil => rfl
  | cons c cs ih =>
    rw [List.map_cons, spell_cons_writtenPiece, ih]
    rfl

theorem spellString_writtenPieces (s : String) : spellString (writtenPieces s) = .ok s := by
  rw [spellString, writtenPieces, spell_map_writtenPiece]
  exact congrArg Except.ok String.ofList_toList

/-- Characters without escapes stand for themselves. -/
theorem spell_map_char (cs : List Char) : spell none (cs.map .char) = .ok cs := by
  induction cs with
  | nil => rfl
  | cons c cs ih =>
    rw [List.map_cons, spell, ih]
    rfl

theorem spellString_plainPieces (s : String) : spellString (Tree.plainPieces s) = .ok s := by
  rw [spellString, Tree.plainPieces, spell_map_char]
  exact congrArg Except.ok String.ofList_toList

end SchemaRegistry.Json
