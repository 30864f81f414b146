import SchemaRegistry.Proofs.Json.Numerals
import SchemaRegistry.Proofs.Json.Shape
import SchemaRegistry.Proofs.Json.Spelling

/-!
# Both layouts have the same tokens

A plain value is a row of tokens (`Value.tokens`), and both texts of it, the compact one and the one over
several lines, scan as these tokens (`scan_print`, `scan_printLines`). What follows the value is scanned
as if it stood alone, so a value cannot run into its neighbours.
-/

namespace SchemaRegistry.Json

/-! ## Scanning single tokens -/

theorem scan_blank {c : Char} (h : isBlank c = true) (cs : List Char) : scan (c :: cs) = scan cs := by
  rw [scan.eq_def]
  simp only [h, if_true]

@[simp] theorem scan_nil : scan [] = [] := by rw [scan]

@[simp] theorem scan_openArray (cs : List Char) : scan ('[' :: cs) = .openArray :: scan cs := by
  rw [scan]
  rfl

@[simp] theorem scan_closeArray (cs : List Char) : scan (']' :: cs) = .closeArray :: scan cs := by
  rw [scan]
  rfl

@[simp] theorem scan_openObject (cs : List Char) : scan ('\x7b' :: cs) = .openObject :: scan cs := by
  rw [scan]
  rfl

@[simp] theorem scan_closeObject (cs : List Char) : scan ('\x7d' :: cs) = .closeObject :: scan cs := by
  rw [scan]
  rfl

@[simp] theorem scan_comma (cs : List Char) : scan (',' :: cs) = .comma :: scan cs := by
  rw [scan]
  rfl

@[simp] theorem scan_colon (cs : List Char) : scan (':' :: cs) = .colon :: scan cs := by
  rw [scan]
  rfl

@[simp] theorem scan_space (cs : List Char) : scan (' ' :: cs) = scan cs := scan_blank rfl cs

theorem scan_null (cs : List Char) : scan ('n' :: 'u' :: 'l' :: 'l' :: cs) = .null :: scan cs := by
  rw [scan]
  rfl

theorem scan_printBoolean (b : Bool) (cs : List Char) :
    scan (Value.printBoolean b ++ cs) = .boolean b :: scan cs := by
  cases b with
  | false =>
    have hscan : scan ('f' :: 'a' :: 'l' :: 's' :: 'e' :: cs) = .boolean false :: scan cs := by
      rw [scan]
      rfl
    exact hscan
  | true =>
    have hscan : scan ('t' :: 'r' :: 'u' :: 'e' :: cs) = .boolean true :: scan cs := by
      rw [scan]
      rfl
    exact hscan

theorem scan_quote {cs rest : List Char} {pieces : List Piece}
    (h : scanString cs = .closed pieces rest) : scan ('"' :: cs) = .string pieces :: scan rest := by
  have hblank : isBlank '"' = false := by decide
  rw [scan, hblank]
  simp only [Bool.false_eq_true, if_false]
  split
  · rename_i heq
    rw [h] at heq
    cases heq
    rfl
  · rename_i heq
    rw [h] at heq
    cases heq

/-- A quoted string scans as its pieces. -/
theorem scan_printString (s : String) (cs : List Char) :
    scan (printString s ++ cs) = .string (writtenPieces s) :: scan cs := by
  have hprint : printString s ++ cs = '"' :: (s.toList.flatMap escapeChar ++ '"' :: cs) := by
    simp [printString]
  rw [hprint]
  exact scan_quote (scanString_flatMap_escapeChar s.toList cs)

theorem scan_replicate_space (n : Nat) (cs : List Char) :
    scan (List.replicate n ' ' ++ cs) = scan cs := by
  induction n with
  | zero => rfl
  | succ n ih => rw [List.replicate_succ, List.cons_append, scan_space, ih]

@[simp] theorem scan_newLine (level : Nat) (cs : List Char) :
    scan (Value.newLine level ++ cs) = scan cs := by
  rw [Value.newLine, List.cons_append, scan_blank rfl, scan_replicate_space]

namespace Value

/-! ## Tokens of a value -/

mutual

/-- The tokens of a value. -/
def tokens : Value → List Token
  | .null => [.null]
  | .boolean b => [.boolean b]
  | .number n => [.number (some n)]
  | .text s => [.string (writtenPieces s)]
  | .array [] => [.openArray, .closeArray]
  | .array (v :: rest) => .openArray :: tokens v ++ itemTokens rest
  | .object [] => [.openObject, .closeObject]
  | .object ((k, v) :: rest) =>
    .openObject :: .string (writtenPieces k) :: .colon :: tokens v ++ memberTokens rest

/-- The tokens of the items of an array after the first, with the closing bracket. -/
def itemTokens : List Value → List Token
  | [] => [.closeArray]
  | v :: rest => .comma :: tokens v ++ itemTokens rest

/-- The tokens of the members of an object after the first, with the closing brace. -/
def memberTokens : List (String × Value) → List Token
  | [] => [.closeObject]
  | (k, v) :: rest => .comma :: .string (writtenPieces k) :: .colon :: tokens v ++ memberTokens rest

end

/-! ## Compact -/

/-- What follows an item does not continue a number. -/
theorem delimited_printItems (items : List Value) (rest : List Char) :
    Delimited (printItems items ++ rest) := by
  cases items <;> exact delimited_cons.2 (by decide)

theorem delimited_printMembers (members : List (String × Value)) (rest : List Char) :
    Delimited (printMembers members ++ rest) := by
  rcases members with _ | ⟨⟨k, v⟩, members⟩ <;> exact delimited_cons.2 (by decide)

theorem scan_print_number {n : Number} (h : (Value.number n).Plain) {rest : List Char}
    (hrest : Delimited rest) : scan (n.print ++ rest) = .number (some n) :: scan rest := by
  obtain ⟨k, hrange, rfl⟩ := h
  exact scan_print_integer k hrange hrest

mutual

theorem scan_print : ∀ {v : Value}, v.Plain → ∀ {rest : List Char}, Delimited rest →
    scan (v.print ++ rest) = v.tokens ++ scan rest
  | .null, _, rest, _ => scan_null rest
  | .boolean b, _, rest, _ => scan_printBoolean b rest
  | .number _, h, _, hrest => scan_print_number h hrest
  | .text s, _, rest, _ => scan_printString s rest
  | .array [], _, rest, _ => by simp [print, tokens]
  | .array (v :: items), h, rest, _ => by
    -- a comma or the closing bracket comes next, so the first item ends where it should
    have hfirst := scan_print h.1 (delimited_printItems items rest)
    have hitems := scan_printItems h.2 rest
    simp only [print, tokens, List.cons_append, List.append_assoc, scan_openArray, hfirst, hitems]
  | .object [], _, rest, _ => by simp [print, tokens]
  | .object ((k, v) :: members), h, rest, _ => by
    have hfirst := scan_print h.2.1 (delimited_printMembers members rest)
    have hmembers := scan_printMembers h.2.2 rest
    simp only [print, tokens, List.cons_append, List.append_assoc, scan_openObject, scan_printString,
      scan_colon, hfirst, hmembers]

theorem scan_printItems : ∀ {items : List Value}, AllPlain items → ∀ (rest : List Char),
    scan (printItems items ++ rest) = itemTokens items ++ scan rest
  | [], _, rest => by simp [printItems, itemTokens]
  | v :: items, h, rest => by
    have hfirst := scan_print h.1 (delimited_printItems items rest)
    have hitems := scan_printItems h.2 rest
    simp only [printItems, itemTokens, List.cons_append, List.append_assoc, scan_comma, hfirst, hitems]

theorem scan_printMembers : ∀ {members : List (String × Value)}, MembersPlain members →
    ∀ (rest : List Char), scan (printMembers members ++ rest) = memberTokens members ++ scan rest
  | [], _, rest => by simp [printMembers, memberTokens]
  | (k, v) :: members, h, rest => by
    have hfirst := scan_print h.1 (delimited_printMembers members rest)
    have hmembers := scan_printMembers h.2 rest
    simp only [printMembers, memberTokens, List.cons_append, List.append_assoc, scan_comma,
      scan_printString, scan_colon, hfirst, hmembers]

end

/-! ## Pretty -/

theorem delimited_printItemLines (level : Nat) (items : List Value) (rest : List Char) :
    Delimited (printItemLines level items ++ rest) := by
  cases items <;> exact delimited_cons.2 (by decide)

theorem delimited_printMemberLines (level : Nat) (members : List (String × Value))
    (rest : List Char) : Delimited (printMemberLines level members ++ rest) := by
  rcases members with _ | ⟨⟨k, v⟩, members⟩ <;> exact delimited_cons.2 (by decide)

mutual

theorem scan_printLines : ∀ (level : Nat) {v : Value}, v.Plain → ∀ {rest : List Char},
    Delimited rest → scan (printLines level v ++ rest) = v.tokens ++ scan rest
  | _, .null, _, rest, _ => scan_null rest
  | _, .boolean b, _, rest, _ => scan_printBoolean b rest
  | _, .number _, h, _, hrest => scan_print_number h hrest
  | _, .text s, _, rest, _ => scan_printString s rest
  | _, .array [], _, rest, _ => by simp [printLines, tokens]
  | level, .array (v :: items), h, rest, _ => by
    have hfirst := scan_printLines (level + 1) h.1 (delimited_printItemLines level items rest)
    have hitems := scan_printItemLines level h.2 rest
    simp only [printLines, tokens, List.cons_append, List.append_assoc, scan_openArray, scan_newLine,
      hfirst, hitems]
  | _, .object [], _, rest, _ => by simp [printLines, tokens]
  | level, .object ((k, v) :: members), h, rest, _ => by
    have hfirst := scan_printLines (level + 1) h.2.1 (delimited_printMemberLines level members rest)
    have hmembers := scan_printMemberLines level h.2.2 rest
    simp only [printLines, tokens, List.cons_append, List.append_assoc, scan_openObject, scan_newLine,
      scan_printString, scan_colon, scan_space, hfirst, hmembers]

theorem scan_printItemLines : ∀ (level : Nat) {items : List Value}, AllPlain items →
    ∀ (rest : List Char), scan (printItemLines level items ++ rest) = itemTokens items ++ scan rest
  | level, [], _, rest => by simp [printItemLines, itemTokens]
  | level, v :: items, h, rest => by
    have hfirst := scan_printLines (level + 1) h.1 (delimited_printItemLines level items rest)
    have hitems := scan_printItemLines level h.2 rest
    simp only [printItemLines, itemTokens, List.cons_append, List.append_assoc, scan_comma,
      scan_newLine, hfirst, hitems]

theorem scan_printMemberLines : ∀ (level : Nat) {members : List (String × Value)},
    MembersPlain members → ∀ (rest : List Char),
      scan (printMemberLines level members ++ rest) = memberTokens members ++ scan rest
  | level, [], _, rest => by simp [printMemberLines, memberTokens]
  | level, (k, v) :: members, h, rest => by
    have hfirst := scan_printLines (level + 1) h.1 (delimited_printMemberLines level members rest)
    have hmembers := scan_printMemberLines level h.2 rest
    simp only [printMemberLines, memberTokens, List.cons_append, List.append_assoc, scan_comma,
      scan_newLine, scan_printString, scan_colon, scan_space, hfirst, hmembers]

end

end Value

end SchemaRegistry.Json
