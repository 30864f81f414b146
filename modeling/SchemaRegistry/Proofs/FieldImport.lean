import Mathlib.Data.List.Basic
import SchemaRegistry.Rule
import SchemaRegistry.Proofs.SortedMap
import SchemaRegistry.Proofs.ImportGraph.Order

/-!
# Carrying out field imports

What it means to gather fields is said by two relations: `Field.Appends` walks through the fields that
are offered, `Field.Gathers` goes through the imports one after the other. `addFields` and
`mergedFields` compute what these relations describe. The fields of the definition come first, and those
that follow bring identifiers of their own (`mergedFields_fresh`). Whatever is offered and not excepted
arrives, by its identifier at least (`mergedFields_covers`), and nothing else does (`mem_mergedFields`).

The table of complete fields is filled node by node. Because no node of the order imports from itself or
from a later one, a new entry never changes what an earlier one was computed from (`Solves.next`), and
the finished table solves one equation: the fields of a type are its own and those that the same table
has for its imports (`get?_resolveFields`). No other table solves it (`eq_completeFields`), so the
complete fields do not depend on the order in which they are found.
-/

namespace SchemaRegistry

variable {m : Type → Type}

/-! ## Walking through offered fields -/

/-- Walks through the offered fields in order. A field is appended to the list built so far unless its
identifier is excepted or already present in that list. -/
inductive Field.Appends (except : List String) : List Field → List Field → List Field → Prop where
  | done (fields : List Field) : Appends except fields [] fields
  | skip {fields offered result : List Field} {f : Field} :
      (f.identifier ∈ except ∨ ∃ g ∈ fields, g.identifier = f.identifier) →
      Appends except fields offered result → Appends except fields (f :: offered) result
  | append {fields offered result : List Field} {f : Field} :
      f.identifier ∉ except → (∀ g ∈ fields, g.identifier ≠ f.identifier) →
      Appends except (fields ++ [f]) offered result → Appends except fields (f :: offered) result

theorem addFields_cons (except : List String) (fields offered : List Field) (f : Field) :
    addFields except fields (f :: offered) =
      if f.identifier ∈ except ∨ ∃ g ∈ fields, g.identifier = f.identifier then
        addFields except fields offered
      else addFields except (fields ++ [f]) offered := by
  have htest : (except.contains f.identifier || fields.any (·.identifier == f.identifier)) = true ↔
      (f.identifier ∈ except ∨ ∃ g ∈ fields, g.identifier = f.identifier) := by
    simp
  simp only [addFields, List.foldl_cons, htest]
  split <;> rfl

/-- `addFields` is the walk. -/
theorem Field.appends_addFields (except : List String) (fields offered : List Field) :
    Field.Appends except fields offered (addFields except fields offered) := by
  induction offered generalizing fields with
  | nil => exact .done fields
  | cons f offered ih =>
    rw [addFields_cons]
    split
    · rename_i htaken
      exact .skip htaken (ih fields)
    · rename_i hfree
      rw [not_or] at hfree
      refine .append hfree.1 ?_ (ih _)
      intro g hg heq
      exact hfree.2 ⟨g, hg, heq⟩

/-- The walk has one outcome only. -/
theorem Field.Appends.unique {except : List String} {fields offered result result' : List Field}
    (h : Field.Appends except fields offered result)
    (h' : Field.Appends except fields offered result') : result = result' := by
  induction h with
  | done fields =>
    cases h'
    rfl
  | skip htaken _ ih =>
    cases h' with
    | skip _ hrest => exact ih hrest
    | append hnew hfree _ =>
      rcases htaken with hexcepted | ⟨g, hg, heq⟩
      · exact absurd hexcepted hnew
      · exact absurd heq (hfree g hg)
  | append hnew hfree _ ih =>
    cases h' with
    | skip htaken _ =>
      rcases htaken with hexcepted | ⟨g, hg, heq⟩
      · exact absurd hexcepted hnew
      · exact absurd heq (hfree g hg)
    | append _ _ hrest => exact ih hrest

/-! ## Going through imports -/

/-- Goes through imports in order, starting from `fields`; `served target offered` says that a target
offers these fields. -/
inductive Field.Gathers (served : String → List Field → Prop) :
    List Field → List FieldImport → List Field → Prop where
  | done (fields : List Field) : Gathers served fields [] fields
  | next {fields offered between result : List Field} {i : FieldImport}
      {imports : List FieldImport} :
      served i.target offered → Field.Appends i.except fields offered between →
      Gathers served between imports result → Gathers served fields (i :: imports) result

/-- If no target offers two lists of fields, only one list can be gathered. -/
theorem Field.Gathers.unique {served : String → List Field → Prop}
    (hserved : ∀ target offered offered',
      served target offered → served target offered' → offered = offered')
    {fields result result' : List Field} {imports : List FieldImport}
    (h : Field.Gathers served fields imports result)
    (h' : Field.Gathers served fields imports result') : result = result' := by
  induction h with
  | done fields =>
    cases h'
    rfl
  | next hoffered happends _ ih =>
    cases h' with
    | next hoffered' happends' hrest =>
      cases hserved _ _ _ hoffered hoffered'
      cases happends.unique happends'
      exact ih hrest

/-- One import, carried out on the fields gathered so far. -/
def takeImport (table : SortedMap (List Field)) (fields : List Field) (i : FieldImport) :
    List Field :=
  match table.get? i.target with
  | some imported => addFields i.except fields imported
  | none => fields

theorem mergedFields_eq_foldl (table : SortedMap (List Field)) (d : Definition m) :
    mergedFields table d = d.fieldImports.foldl (takeImport table) d.fields := rfl

/-- A definition without imports has its own fields only. -/
theorem mergedFields_of_isEmpty {table : SortedMap (List Field)} {d : Definition m}
    (h : d.fieldImports.isEmpty = true) : mergedFields table d = d.fields := by
  rw [mergedFields_eq_foldl, List.isEmpty_iff.1 h, List.foldl_nil]

/-- What is merged depends on the table only at the targets of the imports. -/
theorem mergedFields_congr {table table' : SortedMap (List Field)} {d : Definition m}
    (h : ∀ i ∈ d.fieldImports, table.get? i.target = table'.get? i.target) :
    mergedFields table d = mergedFields table' d := by
  rw [mergedFields_eq_foldl, mergedFields_eq_foldl]
  apply List.foldl_ext
  intro fields i hi
  simp only [takeImport, h i hi]

/-- Where the table has all targets, merging is gathering. -/
theorem Field.gathers_foldl_takeImport {served : String → List Field → Prop}
    {table : SortedMap (List Field)} {imports : List FieldImport}
    (h : ∀ i ∈ imports, ∃ offered, table.get? i.target = some offered ∧ served i.target offered)
    (fields : List Field) :
    Field.Gathers served fields imports (imports.foldl (takeImport table) fields) := by
  induction imports generalizing fields with
  | nil => exact .done fields
  | cons i imports ih =>
    obtain ⟨offered, hget, hserved⟩ := h i List.mem_cons_self
    have hstep : takeImport table fields i = addFields i.except fields offered := by
      simp only [takeImport, hget]
    rw [List.foldl_cons, hstep]
    refine .next hserved (Field.appends_addFields i.except fields offered) ?_
    exact ih (fun j hj => h j (List.mem_cons_of_mem _ hj)) _

/-! ## Own fields first -/

/-- The fields `more` may follow `fields`: they bring identifiers of their own, each of them once. -/
structure Field.Fresh (fields more : List Field) : Prop where
  apart : ∀ f ∈ more, ∀ g ∈ fields, g.identifier ≠ f.identifier
  nodup : (more.map (·.identifier)).Nodup

namespace Field.Fresh

variable {fields more later : List Field}

theorem nil (fields : List Field) : Fresh fields [] :=
  ⟨by simp, .nil⟩

theorem singleton {f : Field} (h : ∀ g ∈ fields, g.identifier ≠ f.identifier) :
    Fresh fields [f] where
  apart f' hf' := by
    obtain rfl := List.mem_singleton.1 hf'
    exact h
  nodup := List.nodup_singleton _

theorem append (h : Fresh fields more) (h' : Fresh (fields ++ more) later) :
    Fresh fields (more ++ later) where
  apart f hf := by
    rcases List.mem_append.1 hf with hf | hf
    · exact h.apart f hf
    · intro g hg
      exact h'.apart f hf g (List.mem_append_left _ hg)
  nodup := by
    rw [List.map_append]
    refine h.nodup.append h'.nodup ?_
    intro identifier hmore hlater
    obtain ⟨g, hg, rfl⟩ := List.mem_map.1 hmore
    obtain ⟨f, hf, heq⟩ := List.mem_map.1 hlater
    exact h'.apart f hf g (List.mem_append_right _ hg) heq.symm

/-- Distinct identifiers stay distinct. -/
theorem nodup_append (h : Fresh fields more) (hfields : (fields.map (·.identifier)).Nodup) :
    ((fields ++ more).map (·.identifier)).Nodup := by
  rw [List.map_append]
  refine hfields.append h.nodup ?_
  intro identifier hown hmore
  obtain ⟨g, hg, rfl⟩ := List.mem_map.1 hown
  obtain ⟨f, hf, heq⟩ := List.mem_map.1 hmore
  exact h.apart f hf g hg heq.symm

end Field.Fresh

/-- What the walk adds is fresh. -/
theorem Field.Appends.fresh {except : List String} {fields offered result : List Field}
    (h : Field.Appends except fields offered result) :
    ∃ more, result = fields ++ more ∧ Field.Fresh fields more := by
  induction h with
  | done fields => exact ⟨[], (List.append_nil _).symm, .nil fields⟩
  | skip _ _ ih => exact ih
  | @append fields offered result f _ hfree _ ih =>
    obtain ⟨more, rfl, hmore⟩ := ih
    exact ⟨[f] ++ more, List.append_assoc _ _ _, (Field.Fresh.singleton hfree).append hmore⟩

theorem fresh_takeImport (table : SortedMap (List Field)) (fields : List Field) (i : FieldImport) :
    ∃ more, takeImport table fields i = fields ++ more ∧ Field.Fresh fields more := by
  unfold takeImport
  split
  · exact (Field.appends_addFields i.except fields _).fresh
  · exact ⟨[], (List.append_nil _).symm, .nil fields⟩

theorem fresh_foldl_takeImport (table : SortedMap (List Field)) (imports : List FieldImport)
    (fields : List Field) :
    ∃ more, imports.foldl (takeImport table) fields = fields ++ more ∧ Field.Fresh fields more := by
  induction imports generalizing fields with
  | nil => exact ⟨[], (List.append_nil _).symm, .nil fields⟩
  | cons i imports ih =>
    obtain ⟨more, hstep, hmore⟩ := fresh_takeImport table fields i
    obtain ⟨later, hrest, hlater⟩ := ih (fields ++ more)
    refine ⟨more ++ later, ?_, hmore.append hlater⟩
    rw [List.foldl_cons, hstep, hrest, List.append_assoc]

/-- Whatever a definition imports, its own fields come first and what follows is fresh. -/
theorem mergedFields_fresh (table : SortedMap (List Field)) (d : Definition m) :
    ∃ more, mergedFields table d = d.fields ++ more ∧ Field.Fresh d.fields more :=
  fresh_foldl_takeImport table d.fieldImports d.fields

/-- The fields `result` begin with `fields`, and those that follow bring identifiers of their own. -/
def Field.Extend (fields result : List Field) : Prop :=
  ∃ more, result = fields ++ more ∧ ∀ f ∈ more, ∀ g ∈ fields, g.identifier ≠ f.identifier

theorem Field.Extend.subset {fields result : List Field} (h : Field.Extend fields result) :
    fields ⊆ result := by
  obtain ⟨more, rfl, -⟩ := h
  exact List.subset_append_left fields more

/-- A field whose identifier is declared is one of the declared fields. -/
theorem Field.Extend.mem {fields result : List Field} (h : Field.Extend fields result) {f : Field}
    (hf : f ∈ result) (hidentifier : ∃ g ∈ fields, g.identifier = f.identifier) : f ∈ fields := by
  obtain ⟨more, rfl, hmore⟩ := h
  obtain ⟨g, hg, heq⟩ := hidentifier
  rcases List.mem_append.1 hf with hf | hf
  · exact hf
  · exact absurd heq (hmore f hf g hg)

/-- Whatever a definition imports, its own fields come first and keep their identifiers to themselves. -/
theorem mergedFields_extend (table : SortedMap (List Field)) (d : Definition m) :
    Field.Extend d.fields (mergedFields table d) := by
  obtain ⟨more, hmerged, hmore⟩ := mergedFields_fresh table d
  exact ⟨more, hmerged, hmore.apart⟩

/-! ## Every offered field arrives -/

theorem Field.Appends.subset {except : List String} {fields offered result : List Field}
    (h : Field.Appends except fields offered result) : fields ⊆ result := by
  obtain ⟨more, rfl, -⟩ := h.fresh
  exact List.subset_append_left fields more

/-- Whatever is offered and not excepted is there after the walk, by its identifier at least. -/
theorem Field.Appends.covers {except : List String} {fields offered result : List Field}
    (h : Field.Appends except fields offered result) {f : Field} (hf : f ∈ offered)
    (hexcept : f.identifier ∉ except) : ∃ g ∈ result, g.identifier = f.identifier := by
  induction h with
  | done fields => exact absurd hf List.not_mem_nil
  | skip htaken hrest ih =>
    rcases List.mem_cons.1 hf with rfl | hf
    · -- it is skipped because its identifier is there already, and it stays there
      obtain ⟨g, hg, heq⟩ := htaken.resolve_left hexcept
      exact ⟨g, hrest.subset hg, heq⟩
    · exact ih hf
  | @append fields offered result f' _ _ hrest ih =>
    rcases List.mem_cons.1 hf with rfl | hf
    · exact ⟨f, hrest.subset (by simp), rfl⟩
    · exact ih hf

/-- A definition has every field that the target of one of its imports offers and that the import does
not except, by its identifier at least. -/
theorem mergedFields_covers {table : SortedMap (List Field)} {d : Definition m} {i : FieldImport}
    (hi : i ∈ d.fieldImports) {offered : List Field} (hoffered : table.get? i.target = some offered)
    {f : Field} (hf : f ∈ offered) (hexcept : f.identifier ∉ i.except) :
    ∃ g ∈ mergedFields table d, g.identifier = f.identifier := by
  obtain ⟨before, after, hsplit⟩ := List.append_of_mem hi
  -- the fields arrive with this import, and the imports after it only add to them
  rw [mergedFields_eq_foldl, hsplit, List.foldl_append, List.foldl_cons]
  generalize before.foldl (takeImport table) d.fields = fields
  have htaken : takeImport table fields i = addFields i.except fields offered := by
    rw [takeImport, hoffered]
  obtain ⟨g, hg, heq⟩ := (Field.appends_addFields i.except fields offered).covers hf hexcept
  rw [← htaken] at hg
  obtain ⟨more, hrest, -⟩ := fresh_foldl_takeImport table after (takeImport table fields i)
  rw [hrest]
  exact ⟨g, List.mem_append_left _ hg, heq⟩

/-! ## Nothing else arrives -/

/-- Whatever is there after the walk was there before or was offered and not excepted. -/
theorem Field.Appends.mem {except : List String} {fields offered result : List Field}
    (h : Field.Appends except fields offered result) {f : Field} (hf : f ∈ result) :
    f ∈ fields ∨ f ∈ offered ∧ f.identifier ∉ except := by
  induction h with
  | done fields => exact .inl hf
  | skip _ _ ih =>
    rcases ih hf with hmem | ⟨hoffered, hexcept⟩
    · exact .inl hmem
    · exact .inr ⟨List.mem_cons_of_mem _ hoffered, hexcept⟩
  | append hnew _ _ ih =>
    rcases ih hf with hmem | ⟨hoffered, hexcept⟩
    · rcases List.mem_append.1 hmem with hmem | hmem
      · exact .inl hmem
      · obtain rfl := List.mem_singleton.1 hmem
        exact .inr ⟨List.mem_cons_self, hnew⟩
    · exact .inr ⟨List.mem_cons_of_mem _ hoffered, hexcept⟩

/-- The import brings the field `f`: its target offers it, and the import does not except it. -/
def FieldImport.Brings (table : SortedMap (List Field)) (i : FieldImport) (f : Field) : Prop :=
  ∃ offered, table.get? i.target = some offered ∧ f ∈ offered ∧ f.identifier ∉ i.except

theorem mem_takeImport {table : SortedMap (List Field)} {fields : List Field} {i : FieldImport}
    {f : Field} (hf : f ∈ takeImport table fields i) : f ∈ fields ∨ i.Brings table f := by
  unfold takeImport at hf
  split at hf
  · rename_i offered hget
    rcases (Field.appends_addFields i.except fields offered).mem hf with hmem | ⟨hoffered, hexcept⟩
    · exact .inl hmem
    · exact .inr ⟨offered, hget, hoffered, hexcept⟩
  · exact .inl hf

theorem mem_foldl_takeImport {table : SortedMap (List Field)} {imports : List FieldImport}
    {fields : List Field} {f : Field} (hf : f ∈ imports.foldl (takeImport table) fields) :
    f ∈ fields ∨ ∃ i ∈ imports, i.Brings table f := by
  induction imports generalizing fields with
  | nil => exact .inl hf
  | cons i imports ih =>
    rw [List.foldl_cons] at hf
    rcases ih hf with hmem | ⟨j, hj, hbrings⟩
    · rcases mem_takeImport hmem with hmem | hbrings
      · exact .inl hmem
      · exact .inr ⟨i, List.mem_cons_self, hbrings⟩
    · exact .inr ⟨j, List.mem_cons_of_mem _ hj, hbrings⟩

/-- Every merged field is one of the definition's own or brought by one of its imports. -/
theorem mem_mergedFields {table : SortedMap (List Field)} {d : Definition m} {f : Field}
    (hf : f ∈ mergedFields table d) : f ∈ d.fields ∨ ∃ i ∈ d.fieldImports, i.Brings table f :=
  mem_foldl_takeImport hf

/-! ## The definition with its imported fields -/

@[simp] theorem Definition.withFields_withFields (d : Definition m) (fields fields' : List Field) :
    (d.withFields fields).withFields fields' = d.withFields fields' := rfl

/-- Apart from its fields a definition stays as it is. -/
@[simp] theorem withFields_importFields (table : SortedMap (List Field)) (d : Definition m)
    (fields : List Field) : (importFields table d).withFields fields = d.withFields fields := by
  unfold importFields
  split
  · exact d.withFields_withFields _ _
  · rfl

/-- Directives and definitions without imports stay as they are. -/
theorem importFields_of_unaffected {d : Definition m} (h : d.isType = false ∨ d.fieldImports = [])
    (table : SortedMap (List Field)) : importFields table d = d := by
  unfold importFields
  rcases h with hdirective | hnone
  · simp [hdirective]
  · simp [hnone]

/-- A type gets the merged fields; without imports these are its own. -/
theorem importFields_of_isType {d : Definition m} (h : d.isType = true)
    (table : SortedMap (List Field)) :
    importFields table d = d.withFields (mergedFields table d) := by
  unfold importFields
  cases hempty : d.fieldImports.isEmpty with
  | true =>
    rw [mergedFields_of_isEmpty hempty]
    simp [Definition.withFields]
  | false => simp [h]

/-! ## The table of complete fields -/

section Table

variable {ds : List (Definition m)} {g : ImportGraph} {order : List String}
  {table : SortedMap (List Field)}

/-- One entry, computed from those before it. -/
def resolveNext (ds : List (Definition m)) (table : SortedMap (List Field)) (v : String) :
    SortedMap (List Field) :=
  match ds.find? (Definition.isTypeNamed v) with
  | some d => table.insert v (mergedFields table d)
  | none => table

theorem resolveFields_eq_foldl (ds : List (Definition m)) (order : List String) :
    resolveFields ds order = order.foldl (resolveNext ds) ∅ := rfl

/-- The table has entries at most for the listed identifiers, and each of them is what the definition
with that identifier merges from this table. -/
def Solves (ds : List (Definition m)) (order : List String) (table : SortedMap (List Field)) :
    Prop :=
  ∀ u, table.get? u =
    if u ∈ order then (ds.find? (Definition.isTypeNamed u)).map (mergedFields table) else none

/-- No definition that stands for a listed identifier imports from `v`. -/
def Unused (ds : List (Definition m)) (order : List String) (v : String) : Prop :=
  ∀ u ∈ order, ∀ d, ds.find? (Definition.isTypeNamed u) = some d →
    ∀ i ∈ d.fieldImports, i.target ≠ v

/-- An entry for `v` changes nothing for a definition that does not import from `v`. -/
theorem mergedFields_insert {v : String} {fields : List Field} {d : Definition m}
    (h : ∀ i ∈ d.fieldImports, i.target ≠ v) :
    mergedFields (table.insert v fields) d = mergedFields table d := by
  apply mergedFields_congr
  intro i hi
  exact table.get?_insert_of_ne fields (h i hi)

theorem Unused.map_mergedFields_insert {v : String} (h : Unused ds order v) {u : String}
    (hu : u ∈ order) (fields : List Field) :
    (ds.find? (Definition.isTypeNamed u)).map (mergedFields (table.insert v fields)) =
      (ds.find? (Definition.isTypeNamed u)).map (mergedFields table) := by
  cases hfind : ds.find? (Definition.isTypeNamed u) with
  | none => rfl
  | some d => rw [Option.map_some, Option.map_some, mergedFields_insert (h u hu d hfind)]

/-- A further entry keeps the table solved if nothing so far, and not the new entry itself, imports
from it. -/
theorem Solves.next {v : String} (h : Solves ds order table) (hv : v ∉ order)
    (hunused : Unused ds (order ++ [v]) v) : Solves ds (order ++ [v]) (resolveNext ds table v) := by
  intro u
  unfold resolveNext
  cases hfind : ds.find? (Definition.isTypeNamed v) with
  | none =>
    by_cases huv : u = v
    · subst huv
      simp only [h u, if_neg hv, hfind, Option.map_none, ite_self]
    · simp only [h u, List.mem_append, List.mem_singleton, huv, or_false]
  | some d =>
    by_cases hu : u ∈ order ++ [v]
    · simp only [if_pos hu, hunused.map_mergedFields_insert hu]
      by_cases huv : u = v
      · subst huv
        rw [SortedMap.get?_insert_self, hfind, Option.map_some]
      · have hu' : u ∈ order := by simpa [huv] using hu
        rw [SortedMap.get?_insert_of_ne _ _ huv, h u, if_pos hu']
    · have huv : u ≠ v := fun heq => hu (by simp [heq])
      have hu' : u ∉ order := fun hmem => hu (List.mem_append_left _ hmem)
      simp only [if_neg hu]
      rw [SortedMap.get?_insert_of_ne _ _ huv, h u, if_neg hu']

/-- Among definitions, the first one with an identifier imports only along edges of `g` as far as the
targets stand in `order`. -/
def FollowsEdges (ds : List (Definition m)) (g : ImportGraph) (order : List String) : Prop :=
  ∀ u d, ds.find? (Definition.isTypeNamed u) = some d →
    ∀ i ∈ d.fieldImports, i.target ∈ order → g.Edge u i.target

/-- Filled in an order in which nothing imports from itself or from later, the table is solved. -/
theorem solves_resolveFields (horder : g.ImportsFirst order) (hnodup : order.Nodup)
    (hedges : FollowsEdges ds g order) : Solves ds order (resolveFields ds order) := by
  induction order using List.reverseRecOn with
  | nil => exact fun u => rfl
  | append_singleton order v ih =>
    obtain ⟨hinit, -, hdisjoint⟩ := List.nodup_append.1 hnodup
    have hv : v ∉ order := fun hmem => hdisjoint v hmem v (List.mem_singleton_self v) rfl
    have hsolved : Solves ds order (resolveFields ds order) :=
      ih horder.init hinit fun u d hd i hi ht => hedges u d hd i hi (List.mem_append_left _ ht)
    have hunused : Unused ds (order ++ [v]) v := by
      intro u hu d hd i hi htarget
      subst htarget
      have hlast : i.target ∈ order ++ [i.target] := by simp
      exact horder.not_edge_last hu (hedges u d hd i hi hlast)
    have hstep := hsolved.next hv hunused
    rwa [resolveFields_eq_foldl, List.foldl_append, List.foldl_cons, List.foldl_nil,
      ← resolveFields_eq_foldl]

end Table

/-! ## The complete fields of the types on no cycle -/

namespace Definition

/-- The definitions that take part in no cycle of imports. -/
def survivors (ds : List (Definition m)) : List (Definition m) :=
  ds.filter fun d => !decide (Circular ds d)

theorem mem_survivors {ds : List (Definition m)} {d : Definition m} :
    d ∈ survivors ds ↔ d ∈ ds ∧ ¬ Circular ds d := by
  simp [survivors]

/-- The table with which the imports among `ds` are carried out. -/
def completeFields (ds : List (Definition m)) : SortedMap (List Field) :=
  resolveFields (survivors ds) ((ImportGraph.ofDefinitions ds).order?.getD [])

/-- Nothing survives under an identifier that lies on a cycle or is not one of a type. -/
theorem find?_survivors_eq_none {ds : List (Definition m)} {u : String}
    (h : ¬ ((∃ d ∈ ds, d.isTypeNamed u = true) ∧ ¬ OnCycle ds u)) :
    (survivors ds).find? (isTypeNamed u) = none := by
  refine List.find?_eq_none.2 ?_
  intro d hd hname
  obtain ⟨hmem, hcircular⟩ := mem_survivors.1 hd
  obtain ⟨htype, rfl⟩ := isTypeNamed_iff.1 hname
  exact h ⟨⟨d, hmem, hname⟩, fun hcycle => hcircular ⟨htype, hcycle⟩⟩

/-- In whatever order the table is filled: the complete fields of an identifier are those of the first
definition that it stands for, its own and after them what its imports find in the very same table. -/
theorem get?_resolveFields {ds : List (Definition m)} {order : List String}
    (h : (ImportGraph.ofDefinitions ds).TopologicalOrder order) (u : String) :
    (resolveFields (survivors ds) order).get? u =
      ((survivors ds).find? (isTypeNamed u)).map
        (mergedFields (resolveFields (survivors ds) order)) := by
  let g := ImportGraph.ofDefinitions ds
  have hmem : ∀ v, v ∈ order ↔ (∃ d ∈ ds, d.isTypeNamed v = true) ∧ ¬ OnCycle ds v := by
    intro v
    rw [h.mem_iff, ImportGraph.mem_nodes_ofDefinitions, ImportGraph.mem_cyclic_ofDefinitions]
  have hedges : FollowsEdges (survivors ds) g order := by
    intro v d hd i hi htarget
    have hdmem : d ∈ ds := (mem_survivors.1 (List.mem_of_find?_eq_some hd)).1
    have hnode : ∃ t ∈ ds, t.isTypeNamed i.target = true := ((hmem _).1 htarget).1
    exact ImportGraph.edge_ofDefinitions.2 ⟨⟨d, hdmem, List.find?_some hd, i, hi, rfl⟩, hnode⟩
  have hfirst := h.importsFirst (ImportGraph.proper_ofDefinitions ds)
  have hentry := solves_resolveFields hfirst h.nodup hedges u
  by_cases hu : u ∈ order
  · rwa [if_pos hu] at hentry
  · -- no surviving type has an identifier that is not in the order
    have hnone : (survivors ds).find? (isTypeNamed u) = none :=
      find?_survivors_eq_none fun htype => hu ((hmem u).2 htype)
    rw [hentry, if_neg hu, hnone, Option.map_none]

/-- The order in which the complete fields are computed. -/
theorem exists_order_completeFields (ds : List (Definition m)) :
    ∃ order, (ImportGraph.ofDefinitions ds).TopologicalOrder order ∧
      completeFields ds = resolveFields (survivors ds) order := by
  obtain ⟨order, horder, htopological⟩ :=
    (ImportGraph.proper_ofDefinitions ds).exists_topologicalOrder
  refine ⟨order, htopological, ?_⟩
  rw [completeFields, horder, Option.getD_some]

theorem get?_completeFields (ds : List (Definition m)) (u : String) :
    (completeFields ds).get? u =
      ((survivors ds).find? (isTypeNamed u)).map (mergedFields (completeFields ds)) := by
  obtain ⟨order, horder, htable⟩ := exists_order_completeFields ds
  rw [htable]
  exact get?_resolveFields horder u

/-- No other table solves this equation. -/
theorem eq_completeFields {ds : List (Definition m)} {table : SortedMap (List Field)}
    (h : ∀ u, table.get? u = ((survivors ds).find? (isTypeNamed u)).map (mergedFields table)) :
    table = completeFields ds := by
  have habsent : ∀ u, ¬ ((∃ d ∈ ds, d.isTypeNamed u = true) ∧ ¬ OnCycle ds u) →
      table.get? u = (completeFields ds).get? u := by
    intro u hu
    rw [h, get?_completeFields, find?_survivors_eq_none hu, Option.map_none, Option.map_none]
  have hpresent : ∀ u, (∃ d ∈ ds, d.isTypeNamed u = true) → ¬ OnCycle ds u →
      table.get? u = (completeFields ds).get? u := by
    refine imports_induction ?_
    intro u _ hbefore
    rw [h, get?_completeFields]
    cases hfind : (survivors ds).find? (isTypeNamed u) with
    | none => rfl
    | some d =>
      -- the tables agree at the targets, so the same is merged from both
      have hmerged : mergedFields table d = mergedFields (completeFields ds) d := by
        apply mergedFields_congr
        intro i hi
        by_cases htarget : (∃ t ∈ ds, t.isTypeNamed i.target = true) ∧ ¬ OnCycle ds i.target
        · have hd : d ∈ ds := (mem_survivors.1 (List.mem_of_find?_eq_some hfind)).1
          have hedge : Imports ds u i.target :=
            ⟨⟨d, hd, List.find?_some hfind, i, hi, rfl⟩, htarget.1⟩
          exact hbefore i.target hedge htarget.2
        · exact habsent i.target htarget
      rw [Option.map_some, Option.map_some, hmerged]
  apply SortedMap.ext_get?
  intro u
  by_cases hu : (∃ d ∈ ds, d.isTypeNamed u = true) ∧ ¬ OnCycle ds u
  · exact hpresent u hu.1 hu.2
  · exact habsent u hu

end Definition

end SchemaRegistry
