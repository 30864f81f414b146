import Mathlib
import SchemaRegistry.Proofs.Document
import SchemaRegistry.Proofs.Json.RecordRewriting

/-!
# The forms of a document

The same document can be written in many forms. Each record in it, from the document itself down to a
trigger, has a table of its members (`Document.forms` and those before it), in the order of their
declaration, which says what may be written differently: the members of every object may come in another
order, those of records as well as those of maps, data and members that are not declared; such members may
be added; and a record may be an array of its values. Only if a map or data say something twice under one
key, which no record does, the last of it counts and has to stay the last.

No rewriting makes a difference to what is read (`document_form_is_immaterial`). Every codec respects the
rewriting of its own table, each by those before it. Nothing is written deeper than it was, but for the
values that are written out in an array for what was not given: the deepest of them, those of a field, are
the sixth array or object from the top.
-/

namespace SchemaRegistry

open Json (Codec MemberForm Piece Rewriting Scope Tree Value)

/-! ## The parts of a document -/

/-- The members of a trigger. -/
def Trigger.forms : List MemberForm :=
  [{ key := "mutations" },
    { key := "config", rewriting := .data, absent := some .null }]

theorem Trigger.respects_forms (n : Nat) : codec.Respects n (.record forms) :=
  .record (by decide) <|
    .cons (.required (Codec.respects_fixed _ _)) <|
    .cons (.optional (Json.respects_data _) fun _ _ => rfl) .nil

/-- The members of a field. -/
def Field.forms : List MemberForm :=
  [{ key := "identifier" },
    { key := "name" },
    { key := "description", absent := some .null },
    { key := "attrs", rewriting := .map .data, absent := some (.object []) },
    { key := "triggers", rewriting := .list (.record Trigger.forms), absent := some (.array []) }]

theorem Field.respects_forms : codec.Respects 2 (.record forms) :=
  .record (by decide) <|
    .cons (.required (Codec.respects_fixed _ _)) <|
    .cons (.required (Codec.respects_fixed _ _)) <|
    .cons (.omittable (Codec.respects_fixed _ _) fun _ _ => rfl) <|
    .cons (.omittable (Json.respects_data _).map fun _ => Codec.read_map_empty _) <|
    .cons (.omittable (Trigger.respects_forms _).list fun _ => Codec.read_list_nil _) .nil

/-- The members of a field import. -/
def FieldImport.forms : List MemberForm :=
  [{ key := "from" },
    { key := "except", absent := some (.array []) }]

theorem FieldImport.respects_forms : codec.Respects 2 (.record forms) :=
  .record (by decide) <|
    .cons (.required (Codec.respects_fixed _ _)) <|
    .cons (.omittable (Codec.respects_fixed _ _) fun _ => Codec.read_list_nil _) .nil

/-- The members of an entry. -/
def Entry.forms : List MemberForm :=
  [{ key := "category" },
    { key := "identifier" },
    { key := "name" },
    { key := "description", absent := some .null },
    { key := "fields", rewriting := .list (.record Field.forms), absent := some (.array []) },
    { key := "interfaces", absent := some (.array []) },
    { key := "field_imports", rewriting := .list (.record FieldImport.forms),
      absent := some (.array []) },
    { key := "attrs", rewriting := .map .data, absent := some (.object []) },
    { key := "source", absent := some .null },
    { key := "file", absent := some .null },
    { key := "line", absent := some (.ofNat 0) },
    { key := "export", absent := some .null }]

theorem Entry.respects_forms : codec.Respects 4 (.record forms) :=
  .record (by decide) <|
    .cons (.required (Codec.respects_fixed _ _)) <|
    .cons (.required (Codec.respects_fixed _ _)) <|
    .cons (.required (Codec.respects_fixed _ _)) <|
    .cons (.optional (Codec.respects_fixed _ _) fun _ _ => rfl) <|
    .cons (.optional Field.respects_forms.list fun _ h => Codec.read_list_nil _ (by omega)) <|
    .cons (.optional (Codec.respects_fixed _ _) fun _ h => Codec.read_list_nil _ (by omega)) <|
    .cons (.optional FieldImport.respects_forms.list fun _ h => Codec.read_list_nil _ (by omega)) <|
    .cons (.optional (Json.respects_data _).map fun _ h => Codec.read_map_empty _ (by omega)) <|
    .cons (.optional (Codec.respects_fixed _ _) fun _ _ => rfl) <|
    .cons (.optional (Codec.respects_fixed _ _) fun _ _ => rfl) <|
    .cons (.optional (Codec.respects_fixed _ _) fun _ _ => rfl) <|
    .cons (.optional (Codec.respects_fixed _ _) fun _ _ => rfl) .nil

/-- The members of a document. -/
def Document.forms : List MemberForm :=
  [{ key := "descriptions", rewriting := .map .fixed, absent := some (.object []) },
    { key := "definitions", rewriting := .list (.record Entry.forms), absent := some (.array []) }]

theorem Document.respects_forms : codec.Respects 6 (.record forms) :=
  .record (by decide) <|
    .cons (.optional (Codec.respects_fixed _ _).map fun _ h => Codec.read_map_empty _ (by omega)) <|
    .cons (.optional Entry.respects_forms.list fun _ h => Codec.read_list_nil _ (by omega)) .nil

/-! ## The document as a whole -/

/-- A document that is rewritten any number of times, anywhere in it, is read as the same document. So
texts that say the two trees are parsed alike and loaded alike. -/
theorem document_form_is_immaterial {t t' : Tree}
    (h : Relation.ReflTransGen (Rewriting.record Document.forms) t t') :
    (∀ (s : Scope) (doc : Document), 6 ≤ s.depth → Document.codec.read s t = .ok doc →
      Document.codec.read s t' = .ok doc) ∧
    ∀ (text text' : String) (doc : Document), (Tree.ofText text).1 = t →
      Tree.ofText text' = (t', false) → Document.codec.parse text = .ok doc →
        Document.codec.parse text' = .ok doc ∧
          ∀ {m : Type → Type} [Monad m] (sources : Sources m),
            Document.parse sources text' = Document.parse sources text := by
  have hread : ∀ (s : Scope) (doc : Document), 6 ≤ s.depth → Document.codec.read s t = .ok doc →
      Document.codec.read s t' = .ok doc := by
    intro s doc hdepth hread
    induction h with
    | refl => exact hread
    | tail _ hstep ih => exact Document.respects_forms _ _ hstep s doc hdepth ih
  refine ⟨hread, ?_⟩
  rintro text text' doc rfl htext' hparse
  have hparse' : Document.codec.parse text' = .ok doc := by
    have hsame := hread .ofText doc (by decide) (Codec.read_of_parse hparse)
    simp only [Codec.parse, htext', hsame, bind, Except.bind]
    rfl
  refine ⟨hparse', fun sources => ?_⟩
  simp only [Document.parse, hparse, hparse']

/-! ## Two forms of one document -/

/-- A document of one type, written with objects. -/
def objectsText : String := "\x7b\"definitions\": [\x7b\"category\": \"type\", \"identifier\": \"user\",
  \"name\": \"User\", \"fields\": [\x7b\"name\": \"Id\", \"identifier\": \"id\"\x7d],
  \"attrs\": \x7b\"b\": 1, \"a\": 2\x7d\x7d]\x7d"

/-- The same document as an array, with the field as an array, the attributes in another order and a
member that is not declared. -/
def mixedText : String := "[\x7b\x7d, [\x7b\"version\": [\x7b\x7d], \"category\": \"type\",
  \"identifier\": \"user\", \"name\": \"User\", \"fields\": [[\"id\", \"Id\", null, \x7b\x7d, []]],
  \"attrs\": \x7b\"a\": 2, \"b\": 1\x7d\x7d]]"

/-- What they say. -/
def userDocument : Document :=
  { entries := [{
      category := .type, identifier := "user", name := "User",
      fields := [{ identifier := "id", name := "Id" }],
      attrs := .ofList [("a", .ofNat 2), ("b", .ofNat 1)] }] }

/-- The members of its entry, with the field and the attributes written in one way or another. -/
def userMembers (field attrs : Tree) : List (List Piece × Tree) :=
  Tree.ofMembers [("category", .text "type"), ("identifier", .text "user"), ("name", .text "User")] ++
    [(Tree.plainPieces "fields", .array [field] .closed), (Tree.plainPieces "attrs", attrs)]

/-- The document as an object. -/
def userTree (entry : Tree) : Tree :=
  .object [(Tree.plainPieces "definitions", .array [entry] .closed)] .closed

/-- The field as an object. -/
def idObject : Tree := .ofValue (.object [("name", .text "Id"), ("identifier", .text "id")])

/-- The field as an array. -/
def idArray : Tree := .ofValue (.array [.text "id", .text "Id", .null, .object [], .array []])

/-- The attributes in the order of the first text. -/
def attrsAsGiven : Tree := .ofValue (.object [("b", .ofNat 1), ("a", .ofNat 2)])

/-- The attributes in the order of the second text. -/
def attrsSwapped : Tree := .ofValue (.object [("a", .ofNat 2), ("b", .ofNat 1)])

/-- A member that is not declared. -/
def versionMember : List Piece × Tree :=
  (Tree.plainPieces "version", .array [.object [] .closed] .closed)

/-- The document as an array. -/
def mixedTree : Tree :=
  .array [.object [] .closed,
    .array [.object (versionMember :: userMembers idArray attrsSwapped) .closed] .closed] .closed

set_option maxRecDepth 4000 in
theorem ofText_objectsText :
    Tree.ofText objectsText = (userTree (.object (userMembers idObject attrsAsGiven) .closed), false) := by
  have hchars : objectsText.toList = _ := String.toList_ofList
  rw [Tree.ofText, hchars]
  cbv

set_option maxRecDepth 4000 in
theorem ofText_mixedText : Tree.ofText mixedText = (mixedTree, false) := by
  have hchars : mixedText.toList = _ := String.toList_ofList
  rw [Tree.ofText, hchars]
  cbv

theorem parse_objectsText : Document.codec.parse objectsText = .ok userDocument := by
  rw [Codec.parse, ofText_objectsText]
  cbv

/-- What is done to the entry is done to the document. -/
theorem rewriting_userTree {e e' : Tree} (h : Rewriting.record Entry.forms e e') :
    Rewriting.record Document.forms (userTree e) (userTree e') :=
  .value [] [] (List.getElem_mem (by decide : 1 < Document.forms.length))
    (Json.spellString_plainPieces _) (.item [] [] h)

/-- From the one form to the other: the attributes change places, the field becomes an array, a member is
added, and the document becomes an array. -/
theorem rewriting_mixedTree : Relation.ReflTransGen (Rewriting.record Document.forms)
    (userTree (.object (userMembers idObject attrsAsGiven) .closed)) mixedTree := by
  have hattrs : Rewriting.record Entry.forms (.object (userMembers idObject attrsAsGiven) .closed)
      (.object (userMembers idObject attrsSwapped) .closed) :=
    .value ((userMembers idObject attrsAsGiven).take 4) []
      (List.getElem_mem (by decide : 7 < Entry.forms.length)) (Json.spellString_plainPieces _)
      (.reorder (Json.reordered_of_perm (by decide) (.swap _ _ _)))
  have hplaces : List.Forall₂ (MemberForm.Places (Tree.ofMembers [("name", .text "Id"),
      ("identifier", .text "id")])) Field.forms (Tree.ofItems [.text "id", .text "Id", .null, .object [],
        .array []]) :=
    .cons (.inl rfl) <| .cons (.inl rfl) <| .cons (.inr ⟨rfl, rfl⟩) <| .cons (.inr ⟨rfl, rfl⟩) <|
      .cons (.inr ⟨rfl, rfl⟩) .nil
  have hfield : Rewriting.record Entry.forms (.object (userMembers idObject attrsSwapped) .closed)
      (.object (userMembers idArray attrsSwapped) .closed) :=
    .value ((userMembers idObject attrsSwapped).take 3) [(Tree.plainPieces "attrs", attrsSwapped)]
      (List.getElem_mem (by decide : 4 < Entry.forms.length)) (Json.spellString_plainPieces _)
      (.item [] [] (.toArray hplaces))
  have hversion : Rewriting.record Entry.forms (.object (userMembers idArray attrsSwapped) .closed)
      (.object (versionMember :: userMembers idArray attrsSwapped) .closed) :=
    .add [] _ ⟨_, Json.spellString_plainPieces _, by decide⟩
      ⟨⟨⟨trivial, rfl⟩, trivial⟩, rfl⟩
  have hdocument : Rewriting.record Document.forms
      (userTree (.object (versionMember :: userMembers idArray attrsSwapped) .closed)) mixedTree :=
    .toArray (.cons (.inr ⟨rfl, rfl⟩) (.cons (.inl rfl) .nil))
  exact .head (rewriting_userTree hattrs) <| .head (rewriting_userTree hfield) <|
    .head (rewriting_userTree hversion) <| .single hdocument

/-- Both texts are the same document. -/
theorem mixed_form_is_read_alike :
    Document.codec.parse objectsText = .ok userDocument ∧
      Document.codec.parse mixedText = .ok userDocument ∧
        ∀ sources : Sources Id, Document.parse sources mixedText = Document.parse sources objectsText := by
  have htree : (Tree.ofText objectsText).1 =
      userTree (.object (userMembers idObject attrsAsGiven) .closed) := congrArg Prod.fst ofText_objectsText
  obtain ⟨hparse, hload⟩ := (document_form_is_immaterial rewriting_mixedTree).2 objectsText mixedText
    userDocument htree ofText_mixedText parse_objectsText
  exact ⟨parse_objectsText, hparse, fun sources => hload sources⟩

end SchemaRegistry
