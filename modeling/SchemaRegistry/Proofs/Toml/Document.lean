import SchemaRegistry.Config.Saving
import SchemaRegistry.Proofs.SortedMap
import SchemaRegistry.Proofs.Toml.Quoting
import SchemaRegistry.Toml.Reader

/-!
# Tables survive being written in TOML

A written table is a header and a line for each member. A line is read as a statement if its key can stand
without quotes and its value is written in a way that is read up to the end of the line (`Written`), which
strings and truth values are (`written_printString`, `written_printBoolean`). So the statements of a written
table are those that open it and set its members one after the other (`readStatements_printTable`).
-/

namespace SchemaRegistry.Toml

variable {key name : String} {c d : Char} {cs rest next : List Char} {bound : Nat} {v : Value}

/-! ## Keys -/

/-- The key can stand without quotes. -/
def IsBareKey (key : String) : Prop := key.toList ≠ [] ∧ ∀ c ∈ key.toList, isKeyChar c = true

instance (key : String) : Decidable (IsBareKey key) :=
  decidable_of_iff (key.toList ≠ [] ∧ key.toList.all isKeyChar = true) (by simp [IsBareKey])

/-- What a character of a key is not. -/
theorem isKeyChar_cases (h : isKeyChar c = true) :
    isBlank c = false ∧ c ≠ '"' ∧ c ≠ '\'' ∧ c ≠ '[' ∧ c ≠ '\n' ∧ c ≠ '\r' ∧ c ≠ '#' := by
  have hne : ∀ e : Char, isKeyChar e = false → c ≠ e := by
    rintro e he rfl
    rw [h] at he
    cases he
  have hspace := hne ' ' (by decide)
  have htab := hne '\t' (by decide)
  exact ⟨by simp [isBlank, hspace, htab], hne _ (by decide), hne _ (by decide), hne _ (by decide),
    hne _ (by decide), hne _ (by decide), hne _ (by decide)⟩

theorem IsBareKey.exists_eq_cons (h : IsBareKey key) :
    ∃ c cs, key.toList = c :: cs ∧ isKeyChar c = true := by
  obtain ⟨hne, hall⟩ := h
  obtain ⟨c, cs, hkey⟩ := List.exists_cons_of_ne_nil hne
  exact ⟨c, cs, hkey, hall c (hkey ▸ List.mem_cons_self)⟩

theorem readKey_bare (h : IsBareKey key) (hc : isKeyChar c = false) (rest : List Char) :
    readKey (key.toList ++ c :: rest) = some (key, c :: rest) := by
  have htake : (key.toList ++ c :: rest).takeWhile isKeyChar = key.toList := by
    rw [List.takeWhile_append_of_pos h.2, List.takeWhile_cons_of_neg (by simp [hc]), List.append_nil]
  have hdrop : (key.toList ++ c :: rest).dropWhile isKeyChar = c :: rest := by
    rw [List.dropWhile_append_of_pos h.2, List.dropWhile_cons_of_neg (by simp [hc])]
  obtain ⟨first, more, hkey, hfirst⟩ := h.exists_eq_cons
  obtain ⟨-, hquote, hapostrophe, -⟩ := isKeyChar_cases hfirst
  unfold readKey
  split
  · rename_i heq
    rw [hkey] at heq
    exact absurd (List.cons.inj heq).1 hquote
  · rename_i heq
    rw [hkey] at heq
    exact absurd (List.cons.inj heq).1 hapostrophe
  · simp only [htake, hdrop, String.ofList_toList]
    rw [if_neg (by simpa using h.1)]

/-- A path of one key, up to something else than a dot. -/
theorem readKeys_bare (h : IsBareKey key) (hc : isKeyChar c = false)
    (hnext : skipBlanks (c :: rest) = d :: next) (hdot : d ≠ '.') :
    readKeys depthLimit (key.toList ++ c :: rest) = some (⟨[], key⟩, d :: next) := by
  have hblanks : skipBlanks (key.toList ++ c :: rest) = key.toList ++ c :: rest := by
    obtain ⟨first, more, hkey, hfirst⟩ := h.exists_eq_cons
    rw [hkey, List.cons_append, skipBlanks, List.dropWhile_cons_of_neg]
    simp [(isKeyChar_cases hfirst).1]
  rw [depthLimit, readKeys, hblanks, readKey_bare h hc]
  simp only [Option.bind_eq_bind, Option.bind_some, hnext]
  split
  · rename_i heq
    exact absurd (List.cons.inj heq).1 hdot
  · rfl

/-! ## Values -/

/-- The text is read as the value when it stands at the end of a line. -/
structure Written (written : List Char) (v : Value) : Prop where
  not_blank (rest : List Char) : skipBlanks (written ++ rest) = written ++ rest
  reads (rest : List Char) :
    readValue depthLimit (written ++ '\n' :: rest) = some (v, '\n' :: rest)

theorem readValue_mark (depth : Nat) (f : StringForm) (cs : List Char) :
    readValue depth (f.mark :: cs) = (readString (f.mark :: cs)).map fun r => (.text r.1, r.2) := by
  rcases f.mark_cases with h | h <;> rw [h, readValue]

theorem isBlank_mark (f : StringForm) : isBlank f.mark = false := by
  rcases f.mark_cases with h | h <;> rw [h] <;> decide

theorem written_printString (s : String) : Written (printString s) (.text s) := by
  obtain ⟨f, cs, hcs⟩ := exists_printString_eq_cons s
  constructor
  · intro rest
    rw [hcs, List.cons_append, skipBlanks, List.dropWhile_cons_of_neg]
    simp [isBlank_mark]
  · intro rest
    have hread := readString_printString s rest
    rw [hcs, List.cons_append] at hread ⊢
    rw [readValue_mark, hread, Option.map_some]

theorem written_printBoolean (b : Bool) : Written (printBoolean b) (.boolean b) := by
  constructor
  · intro rest
    cases b <;> rfl
  · intro rest
    cases b <;> rfl

/-! ## Statements -/

/-- The header of a table. -/
theorem readStatement_header (h : IsBareKey name) (rest : List Char) :
    readStatement ('[' :: (name.toList ++ ']' :: rest)) = some (.openTable ⟨[], name⟩, rest) := by
  obtain ⟨first, more, hkey, hfirst⟩ := h.exists_eq_cons
  have hbracket : first ≠ '[' := (isKeyChar_cases hfirst).2.2.2.1
  have hkeys : readKeys depthLimit (name.toList ++ ']' :: rest) = some (⟨[], name⟩, ']' :: rest) :=
    readKeys_bare h rfl rfl (by decide)
  rw [readStatement]
  · rw [hkeys]
    rfl
  · intro t ht
    rw [hkey] at ht
    exact hbracket (List.cons.inj ht).1

/-- A line that sets a key. -/
theorem readStatement_line {written : List Char} (h : IsBareKey key) (hwritten : Written written v)
    (rest : List Char) :
    readStatement (key.toList ++ ' ' :: '=' :: ' ' :: (written ++ '\n' :: rest)) =
      some (.assign ⟨[], key⟩ v, '\n' :: rest) := by
  obtain ⟨first, more, hkey, hfirst⟩ := h.exists_eq_cons
  have hbracket : first ≠ '[' := (isKeyChar_cases hfirst).2.2.2.1
  have hkeys : readKeys depthLimit (key.toList ++ ' ' :: '=' :: ' ' :: (written ++ '\n' :: rest)) =
      some (⟨[], key⟩, '=' :: ' ' :: (written ++ '\n' :: rest)) :=
    readKeys_bare h rfl rfl (by decide)
  have hblanks : skipBlanks (' ' :: (written ++ '\n' :: rest)) = written ++ '\n' :: rest :=
    hwritten.not_blank ('\n' :: rest)
  have hpair : readPair (readValue depthLimit)
      (key.toList ++ ' ' :: '=' :: ' ' :: (written ++ '\n' :: rest)) =
        some ((⟨[], key⟩, v), '\n' :: rest) := by
    rw [readPair, hkeys]
    simp only [Option.bind_eq_bind, Option.bind_some, expect, if_true, hblanks, hwritten.reads]
    rfl
  unfold readStatement
  split
  · rename_i heq
    rw [hkey] at heq
    exact absurd (List.cons.inj heq).1 hbracket
  · rename_i heq
    rw [hkey] at heq
    exact absurd (List.cons.inj heq).1 hbracket
  · rw [hpair]
    rfl

theorem readStatements_cons {statement : Statement} {statements : List Statement}
    (hstatement : readStatement cs = some (statement, rest)) (hend : endLine rest = some next)
    (hstatements : readStatements bound next = some statements) :
    readStatements (bound + 1) cs = some (statement :: statements) := by
  cases cs with
  | nil => cases hstatement
  | cons c cs =>
    simp only [readStatements, hstatement, Option.bind_eq_bind, Option.bind_some, hend, hstatements]
    rfl

/-! ## Tables -/

/-- The member is written under a bare key. -/
structure Sets (member : String × List Char) (entry : String × Value) : Prop where
  key_eq : member.1 = entry.1
  bare : IsBareKey entry.1
  written : Written member.2 entry.2

/-- A key begins a statement. -/
theorem skipSpace_bare (h : IsBareKey key) (rest : List Char) :
    skipSpace false (key.toList ++ rest) = some (key.toList ++ rest) := by
  obtain ⟨first, more, hkey, hfirst⟩ := h.exists_eq_cons
  obtain ⟨hblank, -, -, -, hnewline, hreturn, hcomment⟩ := isKeyChar_cases hfirst
  rw [hkey, List.cons_append]
  unfold skipSpace
  split
  · rename_i heq
    cases heq
  · rename_i heq
    exact absurd (List.cons.inj heq).1 hnewline
  · rename_i heq
    exact absurd (List.cons.inj heq).1 hreturn
  · rename_i heq
    obtain ⟨rfl, rfl⟩ := List.cons.inj heq
    simp [hblank, hcomment]

/-- A member on a line of its own. -/
def printLine (member : String × List Char) : List Char :=
  member.1.toList ++ ' ' :: '=' :: ' ' :: (member.2 ++ ['\n'])

theorem printTable_eq (name : String) (members : List (String × List Char)) :
    printTable name members = '[' :: (name.toList ++ ']' :: '\n' :: members.flatMap printLine) := by
  simp only [printTable, List.cons_append, List.append_assoc]
  rfl

/-- The lines of a table set its members. -/
theorem readStatements_lines {members : List (String × List Char)} {entries : List (String × Value)}
    {statements : List Statement} (h : List.Forall₂ Sets members entries)
    (hnext : skipSpace false rest = some next)
    (hstatements : readStatements bound next = some statements) :
    ∃ first, skipSpace false (members.flatMap printLine ++ rest) = some first ∧
      readStatements (bound + entries.length) first =
        some (entries.map (fun e => .assign ⟨[], e.1⟩ e.2) ++ statements) := by
  induction h with
  | nil => exact ⟨next, hnext, hstatements⟩
  | @cons member entry members entries hsets _ ih =>
    obtain ⟨first, hfirst, hread⟩ := ih
    obtain ⟨key, written⟩ := member
    obtain ⟨rfl, hbare, hwritten⟩ := hsets
    have hline : printLine (entry.1, written) ++ (members.flatMap printLine ++ rest) =
        entry.1.toList ++ ' ' :: '=' :: ' ' ::
          (written ++ '\n' :: (members.flatMap printLine ++ rest)) := by
      simp [printLine]
    rw [List.flatMap_cons, List.append_assoc, hline]
    exact ⟨_, skipSpace_bare hbare _,
      readStatements_cons (readStatement_line hbare hwritten _) hfirst hread⟩

/-- A table in front of further statements. -/
theorem readStatements_printTable {members : List (String × List Char)}
    {entries : List (String × Value)} {statements : List Statement} (hname : IsBareKey name)
    (h : List.Forall₂ Sets members entries) (hnext : skipSpace false rest = some next)
    (hstatements : readStatements bound next = some statements) :
    readStatements (bound + entries.length + 1) (printTable name members ++ rest) =
      some (.openTable ⟨[], name⟩ ::
        (entries.map (fun e => .assign ⟨[], e.1⟩ e.2) ++ statements)) := by
  obtain ⟨first, hfirst, hread⟩ := readStatements_lines h hnext hstatements
  have htable : printTable name members ++ rest =
      '[' :: (name.toList ++ ']' :: '\n' :: (members.flatMap printLine ++ rest)) := by
    simp [printTable_eq]
  rw [htable]
  exact readStatements_cons (readStatement_header hname _) hfirst hread

/-! ## Carrying out the statements -/

section Running

variable {base inner : Draft} {entries : List (String × Value)} {opened : List String}

/-- A table in which all members are values. -/
def Draft.ofEntries (entries : List (String × Value)) : Draft := entries.map fun e => (e.1, .value e.2)

theorem finishMembers_ofEntries (entries : List (String × Value)) :
    finishMembers (Draft.ofEntries entries) = entries := by
  induction entries with
  | nil => rfl
  | cons e rest ih => exact congrArg (e :: ·) ih

/-- A table of its own is opened. -/
theorem run_openTable (h : base.lookup name = none) (statements : List Statement) :
    run opened (.openTable ⟨[], name⟩ :: statements) base =
      run [name] statements (insertEntry name (.table .headed []) base) := by
  have hopen : base.openTable ⟨[], name⟩ = some (insertEntry name (.table .headed []) base) := by
    simp only [Draft.openTable, Draft.changeHeaded, Draft.change, h]
  rw [run, hopen]
  rfl

/-- A member with the greatest key so far is added at the end of the open table. -/
theorem run_assign (h : ∀ e ∈ inner, e.1 < key) (v : Value) (statements : List Statement) :
    run [name] (.assign ⟨[], key⟩ v :: statements) (insertEntry name (.table .headed inner) base) =
      run [name] statements
        (insertEntry name (.table .headed (inner ++ [(key, .value v)])) base) := by
  have hnew : inner.lookup key = none := by
    rw [List.lookup_eq_none_iff]
    intro e he
    have hlt := h e he
    have hne : key ≠ e.1 := fun heq => String.lt_irrefl key (heq ▸ hlt)
    simpa using hne
  have hassign : Draft.assign ⟨[], key⟩ v inner = some (inner ++ [(key, .value v)]) := by
    simp [Draft.assign, Draft.change, hnew, insertEntry_of_lt h]
  have hchange : Draft.changeHeaded [name] (Draft.assign ⟨[], key⟩ v)
      (insertEntry name (.table .headed inner) base) =
        some (insertEntry name (.table .headed (inner ++ [(key, .value v)])) base) := by
    rw [Draft.changeHeaded, Draft.change, lookup_insertEntry, if_pos rfl]
    simp [Draft.change, hassign, insertEntry_insertEntry]
  rw [run, hchange]
  rfl

/-- Members in key order are added one after the other. -/
theorem run_assigns (h : (inner.map (·.1) ++ entries.map (·.1)).Pairwise (· < ·))
    (statements : List Statement) :
    run [name] (entries.map (fun e => .assign ⟨[], e.1⟩ e.2) ++ statements)
        (insertEntry name (.table .headed inner) base) =
      run [name] statements
        (insertEntry name (.table .headed (inner ++ Draft.ofEntries entries)) base) := by
  induction entries generalizing inner with
  | nil =>
    have hinner : inner ++ Draft.ofEntries [] = inner := List.append_nil inner
    rw [hinner]
    rfl
  | cons e rest ih =>
    have hlast : ∀ e' ∈ inner, e'.1 < e.1 := by
      intro e' he'
      exact (List.pairwise_append.1 h).2.2 e'.1 (List.mem_map_of_mem he') e.1 List.mem_cons_self
    have hrest :
        ((inner ++ [(e.1, Node.value e.2)]).map (·.1) ++ rest.map (·.1)).Pairwise (· < ·) := by
      rw [List.map_append, List.append_assoc]
      exact h
    have hinner : inner ++ Draft.ofEntries (e :: rest) =
        inner ++ [(e.1, .value e.2)] ++ Draft.ofEntries rest := by
      rw [List.append_assoc]
      rfl
    rw [List.map_cons, List.cons_append, run_assign hlast, ih hrest, hinner]

/-- A table in key order is built by its statements. -/
theorem run_table (hname : base.lookup name = none) (h : (entries.map (·.1)).Pairwise (· < ·))
    (statements : List Statement) :
    run opened (.openTable ⟨[], name⟩ ::
        (entries.map (fun e => .assign ⟨[], e.1⟩ e.2) ++ statements)) base =
      run [name] statements (insertEntry name (.table .headed (Draft.ofEntries entries)) base) := by
  rw [run_openTable hname, run_assigns (by simpa using h), List.nil_append]

/-- A document that begins with a header is read by its statements. -/
theorem readDocument?_of_header {text : String} {statements : List Statement} {d : Draft}
    (htext : text.toList = '[' :: cs)
    (hstatements : readStatements text.toList.length text.toList = some statements)
    (hrun : run [] statements [] = some d) : readDocument? text = some d.finish := by
  rw [htext] at hstatements
  have hread : readDocument? text = (do
      let statements ← readStatements ('[' :: cs).length ('[' :: cs)
      return (← run [] statements []).finish) := by
    unfold readDocument?
    rw [htext]
    rfl
  rw [hread, hstatements, Option.bind_eq_bind, Option.bind_some, hrun]
  rfl

end Running

end SchemaRegistry.Toml
