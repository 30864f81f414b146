import SchemaRegistry.Proofs.CycleRule

/-!
# Headings

The passes of an assembly write descriptions and fields and nothing else. What they leave alone is the
`Definition.heading`, and what the rules find is a question of headings only: each function of this
module gives the same answer for definitions and for their headings.

Two lists with the same headings therefore have the same missing imports, the same cycles of imports and
the same circular definitions.
-/

namespace SchemaRegistry

variable {m : Type → Type}

namespace Definition

/-- A definition without its description and its fields. -/
def heading (d : Definition m) : Definition m := { d with description := none, fields := [] }

@[simp] theorem heading_withFields (d : Definition m) (fields : List Field) :
    (d.withFields fields).heading = d.heading := rfl

@[simp] theorem isType_heading (d : Definition m) : d.heading.isType = d.isType := rfl

@[simp] theorem category_heading (d : Definition m) : d.heading.category = d.category := rfl

@[simp] theorem identifier_heading (d : Definition m) : d.heading.identifier = d.identifier := rfl

@[simp] theorem name_heading (d : Definition m) : d.heading.name = d.name := rfl

@[simp] theorem location_heading (d : Definition m) : d.heading.location = d.location := rfl

@[simp] theorem origin_heading (d : Definition m) : d.heading.origin = d.origin := rfl

@[simp] theorem fieldImports_heading (d : Definition m) :
    d.heading.fieldImports = d.fieldImports := rfl

@[simp] theorem isTypeNamed_heading (identifier : String) (d : Definition m) :
    d.heading.isTypeNamed identifier = d.isTypeNamed identifier := rfl

/-- What keeps headings keeps categories. -/
theorem category_of_heading_eq {d e : Definition m} (h : d.heading = e.heading) :
    d.category = e.category := by
  rw [← d.category_heading, h, e.category_heading]

theorem heading_importFields (table : SortedMap (List Field)) (d : Definition m) :
    (importFields table d).heading = d.heading := by
  rw [← heading_withFields (importFields table d) [], withFields_importFields, heading_withFields]

/-- Carrying out imports leaves a type a type. -/
theorem isType_importFields (table : SortedMap (List Field)) (d : Definition m) :
    (importFields table d).isType = d.isType := by
  rw [← isType_heading, heading_importFields, isType_heading]

theorem isTypeNamed_importFields (table : SortedMap (List Field)) (identifier : String)
    (d : Definition m) :
    (importFields table d).isTypeNamed identifier = d.isTypeNamed identifier := by
  rw [← isTypeNamed_heading, heading_importFields, isTypeNamed_heading]

theorem fieldImports_importFields (table : SortedMap (List Field)) (d : Definition m) :
    (importFields table d).fieldImports = d.fieldImports := by
  rw [← fieldImports_heading, heading_importFields, fieldImports_heading]

theorem importFields_headings (table : SortedMap (List Field)) (ds : List (Definition m)) :
    (ds.map (importFields table)).map heading = ds.map heading := by
  rw [List.map_map]
  exact List.map_congr_left fun d _ => heading_importFields table d

/-! ## What is found by headings -/

theorem typeIdentifiers_map_heading (ds : List (Definition m)) :
    typeIdentifiers (ds.map heading) = typeIdentifiers ds := by
  simp [typeIdentifiers, List.filter_map, Function.comp_def]

theorem missingImports_heading (types : List String) (d : Definition m) :
    missingImports types d.heading = missingImports types d := rfl

theorem imports_map_heading (ds : List (Definition m)) : Imports (ds.map heading) = Imports ds := by
  funext i j
  simp [Imports]

theorem onCycle_map_heading (ds : List (Definition m)) : OnCycle (ds.map heading) = OnCycle ds := by
  funext i
  rw [OnCycle, imports_map_heading, OnCycle]

theorem circular_heading {ds : List (Definition m)} {d : Definition m} :
    Circular (ds.map heading) d.heading ↔ Circular ds d := by
  rw [Circular, Circular, onCycle_map_heading, isType_heading, identifier_heading]

theorem survivors_map_heading (ds : List (Definition m)) :
    survivors (ds.map heading) = (survivors ds).map heading := by
  simp [survivors, List.filter_map, Function.comp_def, circular_heading]

theorem casualties_map_heading (ds : List (Definition m)) :
    casualties (ds.map heading) = (casualties ds).map heading := by
  simp [casualties, List.filter_map, Function.comp_def, circular_heading]

theorem circularFinding_heading (d : Definition m) :
    circularFinding d.heading = circularFinding d := rfl

/-- The findings on imports from types that do not exist. -/
def missingFindings (ds : List (Definition m)) : List Diagnostic :=
  ds.flatMap (missingImports (typeIdentifiers ds))

theorem missingFindings_map_heading (ds : List (Definition m)) :
    missingFindings (ds.map heading) = missingFindings ds := by
  simp only [missingFindings, typeIdentifiers_map_heading, List.flatMap_map, missingImports_heading]

/-- The findings on circular definitions. -/
def circularFindings (ds : List (Definition m)) : List Diagnostic :=
  (casualties ds).map circularFinding

theorem circularFindings_map_heading (ds : List (Definition m)) :
    circularFindings (ds.map heading) = circularFindings ds := by
  simp only [circularFindings, casualties_map_heading, List.map_map]
  exact List.map_congr_left fun d _ => circularFinding_heading d

/-! ## Lists with the same headings -/

section SameHeadings

variable {ds ds' : List (Definition m)}

/-- A function that does not look beyond headings does not tell the lists apart. -/
theorem eq_of_headings {α : Type} {f : List (Definition m) → α} (h : ds.map heading = ds'.map heading)
    (hf : ∀ ds, f (ds.map heading) = f ds) : f ds = f ds' := by
  rw [← hf ds, h, hf ds']

theorem survivors_headings (h : ds.map heading = ds'.map heading) :
    (survivors ds).map heading = (survivors ds').map heading := by
  rw [← survivors_map_heading, h, survivors_map_heading]

theorem filter_headings (h : ds.map heading = ds'.map heading) (category : Category) :
    (ds.filter (·.category = category)).map heading =
      (ds'.filter (·.category = category)).map heading := by
  have hfilter : ∀ es : List (Definition m),
      (es.filter (·.category = category)).map heading =
        (es.map heading).filter (·.category = category) := by
    intro es
    rw [List.filter_map]
    rfl
  rw [hfilter ds, h, ← hfilter ds']

end SameHeadings

end Definition

end SchemaRegistry
