import SchemaRegistry.Json.Codec
import SchemaRegistry.Proofs.Json.Layout

/-!
# From the text back to the tree

The tokens of a value are read back as its tree (`readValue_tokens`), with nothing left of them. As both
layouts have these tokens, both texts of a plain value have the same tree, `Tree.written`, and do not go
on after it (`ofText_compact`, `ofText_pretty`).

Read as data, this tree gives the value with sorted keys (`anyValue_written`).
-/

namespace SchemaRegistry.Json

namespace Tree

/-! ## The tree of a written value -/

mutual

/-- The tree of a value as it is written, its strings in the pieces of their written form. -/
def written : Value → Tree
  | .null => .null
  | .boolean b => .boolean b
  | .number n => .number (some n)
  | .text s => .string (writtenPieces s)
  | .array items => .array (writtenItems items) .closed
  | .object members => .object (writtenMembers members) .closed

/-- The trees of the items of an array. -/
def writtenItems : List Value → List Tree
  | [] => []
  | v :: rest => written v :: writtenItems rest

/-- The keys and trees of the members of an object. -/
def writtenMembers : List (String × Value) → List (List Piece × Tree)
  | [] => []
  | (k, v) :: rest => (writtenPieces k, written v) :: writtenMembers rest

end

theorem writtenMembers_eq_map (members : List (String × Value)) :
    writtenMembers members = members.map fun m => (writtenPieces m.1, written m.2) := by
  induction members with
  | nil => rfl
  | cons m members ih =>
    obtain ⟨k, v⟩ := m
    rw [writtenMembers, ih, List.map_cons]

/-! ## Reading tokens -/

/-- The tokens of the value are read back, whatever follows them. Each call of the reader lowers the bound
by one and takes a token of its own, so the number of tokens is enough. -/
def ReadsBack (v : Value) : Prop :=
  ∀ bound, v.tokens.length ≤ bound → ∀ rest : List Token,
    readValue bound (v.tokens ++ rest) = (written v, some rest)

/-- A value does not begin with the end of an array. -/
theorem exists_tokens_eq_cons (v : Value) :
    ∃ t ts, v.tokens = t :: ts ∧ t ≠ .closeArray := by
  match v with
  | .null | .boolean _ | .number _ | .text _ => exact ⟨_, _, rfl, Token.noConfusion⟩
  | .array [] | .array (_ :: _) => exact ⟨_, _, rfl, Token.noConfusion⟩
  | .object [] | .object ((_, _) :: _) => exact ⟨_, _, rfl, Token.noConfusion⟩

/-- An array that does not end at once has items. -/
theorem readValue_openArray {t : Token} (h : t ≠ .closeArray) (bound : Nat) (ts : List Token) :
    readValue (bound + 1) (.openArray :: t :: ts) =
      (.array (readItems bound (t :: ts)).1 (readItems bound (t :: ts)).2.1,
        (readItems bound (t :: ts)).2.2) := by
  rw [readValue]
  · intro rest heq
    exact h (List.cons.inj heq).1
  · intro heq
    cases heq

/-- An object that does not end at once has members. -/
theorem readValue_openObject {t : Token} (h : t ≠ .closeObject) (bound : Nat) (ts : List Token) :
    readValue (bound + 1) (.openObject :: t :: ts) =
      (.object (readMembers bound (t :: ts)).1 (readMembers bound (t :: ts)).2.1,
        (readMembers bound (t :: ts)).2.2) := by
  rw [readValue]
  · intro rest heq
    exact h (List.cons.inj heq).1
  · intro heq
    cases heq

/-- With its first item read back, an array is read to its closing bracket. -/
theorem readItems_tokens : ∀ (items : List Value) {v : Value}, ReadsBack v →
    (∀ w ∈ items, ReadsBack w) → ∀ bound,
      v.tokens.length + (Value.itemTokens items).length ≤ bound → ∀ rest : List Token,
        readItems bound (v.tokens ++ (Value.itemTokens items ++ rest)) =
          (written v :: writtenItems items, .closed, some rest)
  | _, v, _, _, 0, hbound, _ => by
    obtain ⟨t, ts, htokens, -⟩ := exists_tokens_eq_cons v
    simp [htokens] at hbound
  | [], v, hv, _, bound + 1, hbound, rest => by
    have hread := hv bound (by simp [Value.itemTokens] at hbound; omega) (.closeArray :: rest)
    simp only [Value.itemTokens, List.cons_append, List.nil_append]
    rw [readItems, hread]
    rfl
  | w :: items, v, hv, hitems, bound + 1, hbound, rest => by
    simp only [Value.itemTokens, List.cons_append, List.length_cons, List.length_append] at hbound
    obtain ⟨t, ts, htokens, ht⟩ := exists_tokens_eq_cons w
    have hfirst := hv bound (by omega) (.comma :: (w.tokens ++ (Value.itemTokens items ++ rest)))
    have hothers := readItems_tokens items (hitems w List.mem_cons_self)
      (fun w' hw' => hitems w' (List.mem_cons_of_mem _ hw')) bound (by omega) rest
    simp only [Value.itemTokens, List.cons_append, List.append_assoc]
    rw [readItems, hfirst]
    -- after the comma stands another item, not the end of the array
    rw [htokens, List.cons_append] at hothers ⊢
    simp [hothers, ht, writtenItems]

/-- With its first value read back, an object is read to its closing brace. -/
theorem readMembers_tokens : ∀ (members : List (String × Value)) (k : String) {v : Value},
    ReadsBack v → (∀ m ∈ members, ReadsBack m.2) → ∀ bound,
      v.tokens.length + (Value.memberTokens members).length ≤ bound → ∀ rest : List Token,
        readMembers bound (.string (writtenPieces k) :: .colon ::
            (v.tokens ++ (Value.memberTokens members ++ rest))) =
          ((writtenPieces k, written v) :: writtenMembers members, .closed, some rest)
  | _, _, v, _, _, 0, hbound, _ => by
    obtain ⟨t, ts, htokens, -⟩ := exists_tokens_eq_cons v
    simp [htokens] at hbound
  | [], k, v, hv, _, bound + 1, hbound, rest => by
    have hread := hv bound (by simp [Value.memberTokens] at hbound; omega) (.closeObject :: rest)
    simp only [Value.memberTokens, List.cons_append, List.nil_append]
    rw [readMembers, hread]
    rfl
  | (k', w) :: members, k, v, hv, hmembers, bound + 1, hbound, rest => by
    simp only [Value.memberTokens, List.cons_append, List.length_cons, List.length_append] at hbound
    have hfirst := hv bound (by omega) (.comma :: .string (writtenPieces k') :: .colon ::
      (w.tokens ++ (Value.memberTokens members ++ rest)))
    have hw : ReadsBack w := hmembers (k', w) List.mem_cons_self
    have hothers := readMembers_tokens members k' hw
      (fun m hm => hmembers m (List.mem_cons_of_mem _ hm)) bound (by omega) rest
    simp only [Value.memberTokens, List.cons_append, List.append_assoc]
    rw [readMembers, hfirst]
    simp [hothers, writtenMembers]

mutual

/-- Tokens of a value are read back as its tree. -/
theorem readValue_tokens : ∀ v : Value, ReadsBack v
  | .null, bound + 1, _, _ | .boolean _, bound + 1, _, _ | .number _, bound + 1, _, _
  | .text _, bound + 1, _, _ | .array [], bound + 1, _, _ | .object [], bound + 1, _, _ => rfl
  | .array (v :: items), bound + 1, hbound, rest => by
    simp only [Value.tokens, List.cons_append, List.length_cons, List.length_append] at hbound
    obtain ⟨t, ts, htokens, ht⟩ := exists_tokens_eq_cons v
    have hitems := readItems_tokens items (readValue_tokens v) (readsBack_items items) bound
      (by omega) rest
    rw [htokens, List.cons_append] at hitems
    simp only [Value.tokens, htokens, List.cons_append, List.append_assoc]
    rw [readValue_openArray ht, hitems]
    rfl
  | .object ((k, v) :: members), bound + 1, hbound, rest => by
    simp only [Value.tokens, List.cons_append, List.length_cons, List.length_append] at hbound
    have hmembers := readMembers_tokens members k (readValue_tokens v) (readsBack_members members) bound
      (by omega) rest
    simp only [Value.tokens, List.cons_append, List.append_assoc]
    rw [readValue_openObject Token.noConfusion, hmembers]
    rfl

theorem readsBack_items : ∀ (items : List Value), ∀ v ∈ items, ReadsBack v
  | v :: items, w, hw => by
    rcases List.mem_cons.1 hw with heq | hw
    · rw [heq]
      exact readValue_tokens v
    · exact readsBack_items items w hw

theorem readsBack_members : ∀ (members : List (String × Value)), ∀ m ∈ members, ReadsBack m.2
  | (k, v) :: members, m, hm => by
    rcases List.mem_cons.1 hm with heq | hm
    · rw [heq]
      exact readValue_tokens v
    · exact readsBack_members members m hm

end

/-! ## Whole texts -/

/-- A text with the tokens of a value has its tree, and nothing after it. -/
theorem ofText_of_scan {text : String} {v : Value} (h : scan text.toList = v.tokens) :
    ofText text = (written v, false) := by
  -- the bound that the reader takes is twice what is needed
  have hread := readValue_tokens v (2 * v.tokens.length + 2) (by omega) []
  rw [List.append_nil] at hread
  simp only [ofText, h, hread]

theorem ofText_compact {v : Value} (h : v.Plain) : ofText v.compact = (written v, false) := by
  apply ofText_of_scan
  have hscan := Value.scan_print h delimited_nil
  rw [List.append_nil, scan_nil, List.append_nil] at hscan
  rw [Value.compact, String.toList_ofList, hscan]

theorem ofText_pretty {v : Value} (h : v.Plain) : ofText v.pretty = (written v, false) := by
  apply ofText_of_scan
  have hscan := Value.scan_printLines 0 h delimited_nil
  rw [List.append_nil, scan_nil, List.append_nil] at hscan
  rw [Value.pretty, String.toList_ofList, hscan]

end Tree

/-! ## Read as data -/

/-- Inside an array or an object there is one level less to go. -/
theorem Scope.enter_of_lt {s : Scope} {n : Nat} (h : n + 1 ≤ s.depth) :
    ∃ inner, s.enter = .ok inner ∧ n ≤ inner.depth := by
  have hne : ¬ s.depth = 0 := by omega
  refine ⟨⟨s.depth - 1, s.manner⟩, ?_, Nat.le_sub_one_of_lt h⟩
  rw [Scope.enter, if_neg hne]

namespace Reader

mutual

/-- Reading the tree of a value as data sorts its keys. -/
theorem anyValue_written : ∀ {v : Value} {s : Scope}, v.depth ≤ s.depth →
    anyValue s (Tree.written v) = .ok v.sortKeys
  | .null, _, _ | .boolean _, _, _ | .number _, _, _ => rfl
  | .text t, s, _ => by
    rw [Tree.written, anyValue, spellString_writtenPieces]
    rfl
  | .array items, s, h => by
    obtain ⟨inner, hinner, hdepth⟩ := Scope.enter_of_lt h
    rw [Tree.written, anyValue, hinner]
    simp only [bind, Except.bind, anyItems_written hdepth]
    rfl
  | .object members, s, h => by
    obtain ⟨inner, hinner, hdepth⟩ := Scope.enter_of_lt h
    rw [Tree.written, anyValue, hinner]
    simp only [bind, Except.bind, anyMembers_written hdepth]
    rfl

theorem anyItems_written : ∀ {items : List Value} {s : Scope}, Value.itemsDepth items ≤ s.depth →
    anyItems s (Tree.writtenItems items) = .ok (Value.sortItems items)
  | [], _, _ => rfl
  | v :: items, s, h => by
    rw [Value.itemsDepth, Nat.max_le] at h
    rw [Tree.writtenItems, anyItems, anyValue_written h.1, anyItems_written h.2]
    rfl

theorem anyMembers_written : ∀ {members entries : List (String × Value)} {s : Scope},
    Value.membersDepth members ≤ s.depth →
      anyMembers s entries (Tree.writtenMembers members) = .ok (Value.sortMembers entries members)
  | [], _, _, _ => rfl
  | (k, v) :: members, entries, s, h => by
    rw [Value.membersDepth, Nat.max_le] at h
    rw [Tree.writtenMembers, anyMembers, spellString_writtenPieces, anyValue_written h.1]
    exact anyMembers_written h.2

end

end Reader

theorem Reader.data_eq_ok {s : Scope} {t : Tree} {v : Value} (h : anyValue s t = .ok v) :
    Reader.data s t = .ok ⟨v, ordered_of_anyValue h⟩ := by
  unfold Reader.data
  split
  · rename_i heq
    rw [h] at heq
    cases heq
    rfl
  · rename_i heq
    rw [h] at heq
    cases heq

theorem data_written {v : Value} {s : Scope} (h : v.depth ≤ s.depth) :
    ∃ d, Reader.data s (Tree.written v) = .ok d ∧ d.value = v.sortKeys :=
  ⟨_, Reader.data_eq_ok (Reader.anyValue_written h), rfl⟩

end SchemaRegistry.Json
