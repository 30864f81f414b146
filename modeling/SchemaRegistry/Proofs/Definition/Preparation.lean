import SchemaRegistry.Assembly
import SchemaRegistry.Proofs.Definition.Heading

/-!
# Before the rules: what changes and what does not

Describing changes descriptions only, and linking changes fields of the mutation type only. So the two
passes do not get into each other's way (`linkTriggers_describeAll`), and together they keep the headings
(`prepare_headings`).
-/

namespace SchemaRegistry.Definition

variable {m : Type → Type}

/-! ## Describing -/

theorem describe_eq (descriptions : Descriptions) (d : Definition m) :
    d.describe descriptions =
      { d with description := (descriptions.get? d.identifier).or d.description } := by
  unfold describe
  cases descriptions.get? d.identifier <;> rfl

@[simp] theorem fields_describe (descriptions : Descriptions) (d : Definition m) :
    (d.describe descriptions).fields = d.fields := by
  rw [describe_eq]

@[simp] theorem isTypeNamed_describe (descriptions : Descriptions) (identifier : String)
    (d : Definition m) : (d.describe descriptions).isTypeNamed identifier = d.isTypeNamed identifier := by
  rw [describe_eq]
  rfl

theorem describe_withFields (descriptions : Descriptions) (d : Definition m) (fields : List Field) :
    (d.withFields fields).describe descriptions = (d.describe descriptions).withFields fields := by
  rw [describe_eq, describe_eq]
  rfl

@[simp] theorem heading_describe (descriptions : Descriptions) (d : Definition m) :
    (d.describe descriptions).heading = d.heading := by
  rw [describe_eq]
  rfl

/-! ## Linking -/

/-- The search for a root type finds the only type with its identifier. -/
theorem soleType?_eq_some_iff {ds : List (Definition m)} {identifier : String}
    {d : Definition m} :
    soleType? ds identifier = some d ↔ ds.filter (isTypeNamed identifier) = [d] := by
  unfold soleType?
  rcases ds.filter (isTypeNamed identifier) with _ | ⟨e, _ | ⟨f, rest⟩⟩ <;> simp

/-- Changing every definition changes the root type that is found, as long as none changes its category
or identifier. -/
theorem soleType?_map {change : Definition m → Definition m} {identifier : String}
    (h : ∀ d, (change d).isTypeNamed identifier = d.isTypeNamed identifier)
    (ds : List (Definition m)) :
    soleType? (ds.map change) identifier = (soleType? ds identifier).map change := by
  have hfilter : (ds.map change).filter (isTypeNamed identifier) =
      (ds.filter (isTypeNamed identifier)).map change := by
    rw [List.filter_map]
    congr 2
    funext d
    exact h d
  unfold soleType?
  rw [hfilter]
  rcases ds.filter (isTypeNamed identifier) with _ | ⟨d, _ | ⟨e, rest⟩⟩ <;> rfl

@[simp] theorem identifier_linkField (s : Definition m) (f : Field) :
    (linkField s f).identifier = f.identifier := by
  unfold linkField
  split <;> rfl

@[simp] theorem triggers_linkField (s : Definition m) (f : Field) :
    (linkField s f).triggers = f.triggers := by
  unfold linkField
  split <;> rfl

/-- What linking makes of a definition when the subscription type is known. -/
def link (mutation : String) (subscription d : Definition m) : Definition m :=
  if d.isTypeNamed mutation then d.withFields (d.fields.map (linkField subscription)) else d

/-- Linking either leaves the list as it is or changes the definitions one by one. -/
theorem linkTriggers_cases (mutation subscription : String) (ds : List (Definition m)) :
    (linkTriggers mutation subscription ds = ds ∧
      (soleType? ds mutation = none ∨ soleType? ds subscription = none)) ∨
    ∃ s, soleType? ds subscription = some s ∧ (∃ d, soleType? ds mutation = some d) ∧
      linkTriggers mutation subscription ds = ds.map (link mutation s) := by
  unfold linkTriggers
  cases hmutation : soleType? ds mutation with
  | none => exact .inl ⟨rfl, .inl rfl⟩
  | some d =>
    cases hsubscription : soleType? ds subscription with
    | none => exact .inl ⟨rfl, .inr rfl⟩
    | some s => exact .inr ⟨s, rfl, ⟨d, rfl⟩, rfl⟩

@[simp] theorem heading_link (mutation : String) (s d : Definition m) :
    (link mutation s d).heading = d.heading := by
  unfold link
  split <;> simp

theorem linkTriggers_headings (mutation subscription : String) (ds : List (Definition m)) :
    (linkTriggers mutation subscription ds).map heading = ds.map heading := by
  rcases linkTriggers_cases mutation subscription ds with ⟨heq, -⟩ | ⟨s, -, -, heq⟩
  · rw [heq]
  · rw [heq, List.map_map]
    exact List.map_congr_left fun d _ => heading_link mutation s d

/-! ## Both -/

theorem soleType?_describeAll (descriptions : Descriptions) (ds : List (Definition m))
    (identifier : String) :
    soleType? (describeAll descriptions ds) identifier =
      (soleType? ds identifier).map (describe descriptions) :=
  soleType?_map (isTypeNamed_describe descriptions identifier) ds

theorem link_describe (descriptions : Descriptions) (mutation : String) (s d : Definition m) :
    link mutation (s.describe descriptions) (d.describe descriptions) =
      (link mutation s d).describe descriptions := by
  have hfield : linkField (s.describe descriptions) = linkField s := by
    funext f
    simp only [linkField, firedBy, fields_describe]
  unfold link
  rw [isTypeNamed_describe, hfield, fields_describe]
  split
  · rw [describe_withFields]
  · rfl

/-- Whether definitions are described before or after they are linked makes no difference. -/
theorem linkTriggers_describeAll (descriptions : Descriptions) (mutation subscription : String)
    (ds : List (Definition m)) :
    linkTriggers mutation subscription (describeAll descriptions ds) =
      describeAll descriptions (linkTriggers mutation subscription ds) := by
  -- describing changes neither which root types there are nor what the subscription type triggers
  rcases linkTriggers_cases mutation subscription ds with ⟨heq, hnone⟩ | ⟨s, hs, ⟨d, hd⟩, heq⟩
  · rw [heq]
    unfold linkTriggers
    rw [soleType?_describeAll, soleType?_describeAll]
    rcases hnone with hnone | hnone
    · rw [hnone, Option.map_none]
    · rw [hnone, Option.map_none]
      cases soleType? ds mutation <;> rfl
  · rw [heq]
    unfold linkTriggers
    rw [soleType?_describeAll, soleType?_describeAll, hs, hd, Option.map_some, Option.map_some]
    simp only [describeAll, List.map_map]
    exact List.map_congr_left fun e _ => link_describe descriptions mutation s e

theorem prepare_eq (schema : SchemaNames) (descriptions : Descriptions) (ds : List (Definition m)) :
    prepare schema descriptions ds =
      (linkTriggers schema.mutation schema.subscription ds).map (describe descriptions) :=
  linkTriggers_describeAll descriptions schema.mutation schema.subscription ds

/-- Up to the rules every definition keeps its place and its heading. -/
theorem prepare_headings (schema : SchemaNames) (descriptions : Descriptions)
    (ds : List (Definition m)) :
    (prepare schema descriptions ds).map heading = ds.map heading := by
  rw [prepare_eq, List.map_map, ← linkTriggers_headings schema.mutation schema.subscription ds]
  exact List.map_congr_left fun d _ => heading_describe descriptions d

end SchemaRegistry.Definition
