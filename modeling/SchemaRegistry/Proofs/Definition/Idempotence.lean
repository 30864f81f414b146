import SchemaRegistry.Proofs.Definition.Preparation
import SchemaRegistry.Proofs.SortedMap

/-!
# Describing and linking again

Both passes before the rules can be repeated, and they can change places: nothing is different
(`passes_idempotent_and_commute`).

Linking writes what a field fires into the attributes of the field, so it changes the very definition it
may have read this from. But it reads identifiers and triggers only (`firedBy_link`), and it does not add
to what stands under the attribute but replaces it (`linkField_linkField`). The second time it therefore
finds the same root types and writes the same list once more.
-/

namespace SchemaRegistry.Definition

variable {m : Type → Type}

/-! ## Describing -/

theorem describe_describe (descriptions : Descriptions) (d : Definition m) :
    (d.describe descriptions).describe descriptions = d.describe descriptions := by
  simp only [describe_eq]
  cases descriptions.get? d.identifier <;> rfl

theorem describeAll_describeAll (descriptions : Descriptions) (ds : List (Definition m)) :
    describeAll descriptions (describeAll descriptions ds) = describeAll descriptions ds := by
  unfold describeAll
  rw [List.map_map]
  exact List.map_congr_left fun d _ => describe_describe descriptions d

/-! ## Linking -/

@[simp] theorem isTypeNamed_link (mutation identifier : String) (s d : Definition m) :
    (link mutation s d).isTypeNamed identifier = d.isTypeNamed identifier := by
  unfold link
  split <;> rfl

/-- A linked definition fires what it fired before, also if it is the mutation type itself. -/
theorem firedBy_link (mutation : String) (s d : Definition m) :
    firedBy (link mutation s d) = firedBy d := by
  funext mutationField
  unfold link
  split
  · simp only [firedBy, withFields, List.flatMap_map, identifier_linkField, triggers_linkField]
  · rfl

/-- A field that has noted what it fires notes the same in its place again. -/
theorem linkField_linkField (s : Definition m) (f : Field) :
    linkField s (linkField s f) = linkField s f := by
  rw [linkField.eq_def s (linkField s f), identifier_linkField]
  unfold linkField
  cases firedBy s f.identifier with
  | nil => rfl
  | cons first rest => exact congrArg (fun attrs => { f with attrs }) (SortedMap.insert_insert _ _ _ _)

theorem linkField_link (mutation : String) (s e : Definition m) :
    linkField (link mutation s e) = linkField e := by
  funext f
  simp only [linkField, firedBy_link]

theorem link_link (mutation : String) (s d : Definition m) :
    link mutation (link mutation s s) (link mutation s d) = link mutation s d := by
  rw [link.eq_def mutation (link mutation s s), isTypeNamed_link, linkField_link]
  unfold link
  split
  · have hfields : (d.fields.map (linkField s)).map (linkField s) = d.fields.map (linkField s) := by
      rw [List.map_map]
      exact List.map_congr_left fun f _ => linkField_linkField s f
    exact congrArg d.withFields hfields
  · rfl

theorem linkTriggers_linkTriggers (mutation subscription : String) (ds : List (Definition m)) :
    linkTriggers mutation subscription (linkTriggers mutation subscription ds) =
      linkTriggers mutation subscription ds := by
  rcases linkTriggers_cases mutation subscription ds with ⟨hsame, -⟩ | ⟨s, hs, ⟨d, hd⟩, hlinked⟩
  · rw [hsame, hsame]
  · -- the root types are found again, the subscription type perhaps as what it has been linked to
    have hmutation : soleType? (ds.map (link mutation s)) mutation = some (link mutation s d) := by
      rw [soleType?_map (isTypeNamed_link mutation mutation s), hd, Option.map_some]
    have hsubscription : soleType? (ds.map (link mutation s)) subscription =
        some (link mutation s s) := by
      rw [soleType?_map (isTypeNamed_link mutation subscription s), hs, Option.map_some]
    rcases linkTriggers_cases mutation subscription (ds.map (link mutation s)) with
      ⟨-, hnone⟩ | ⟨s', hs', -, hagain⟩
    · simp [hmutation, hsubscription] at hnone
    · obtain rfl : link mutation s s = s' := Option.some.inj (hsubscription.symm.trans hs')
      rw [hlinked, hagain, List.map_map]
      exact List.map_congr_left fun e _ => link_link mutation s e

/-! ## Both -/

/-- Definitions that are ready for the rules stay as they are when they are made ready again. -/
theorem prepare_prepare (schema : SchemaNames) (descriptions : Descriptions)
    (ds : List (Definition m)) :
    prepare schema descriptions (prepare schema descriptions ds) = prepare schema descriptions ds := by
  unfold prepare
  rw [← linkTriggers_describeAll, describeAll_describeAll, linkTriggers_linkTriggers]

/-- Whatever the definitions and descriptions are and whichever types are the root types, be they one and
the same: describing twice is describing once, linking twice is linking once, and which of the two comes
first makes no difference. -/
theorem passes_idempotent_and_commute (descriptions : Descriptions) (mutation subscription : String)
    (ds : List (Definition m)) :
    describeAll descriptions (describeAll descriptions ds) = describeAll descriptions ds ∧
      linkTriggers mutation subscription (linkTriggers mutation subscription ds) =
        linkTriggers mutation subscription ds ∧
      linkTriggers mutation subscription (describeAll descriptions ds) =
        describeAll descriptions (linkTriggers mutation subscription ds) :=
  ⟨describeAll_describeAll descriptions ds, linkTriggers_linkTriggers mutation subscription ds,
    linkTriggers_describeAll descriptions mutation subscription ds⟩

end SchemaRegistry.Definition
