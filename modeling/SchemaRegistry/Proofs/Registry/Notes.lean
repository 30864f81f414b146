import Mathlib.Data.List.Induction
import SchemaRegistry.Registry.Basic
import SchemaRegistry.Proofs.SortedMap

/-!
# What is noted of every definition

Interfaces and exports are noted of every definition that has its turn, whether it is registered or not.
So both tables can be read off the list of definitions: under an interface stand the identifiers of the
types that declare it (`get?_implementors_ofDefinitions`), and exported are the identifiers of the
definitions that are to be exported (`exports_ofDefinitions`).

Neither a conflict nor another definition takes anything out of the tables, and nothing else gets into
them. This is the law of notes (`Registry.NotesLaw`), which a registry obeys after every list of
definitions (`notes_complete_and_exact`).
-/

namespace SchemaRegistry

variable {m : Type → Type}

/-! ## Interfaces -/

/-- The interfaces that a definition declares if it is a type, each with the identifier of the type. -/
def Definition.declaredInterfaces (d : Definition m) : List (String × String) :=
  if d.isType then d.interfaces.map fun i => (i, d.identifier) else []

/-- The identifiers that are listed for an interface. -/
def listedFor (declared : List (String × String)) (interface : String) : List String :=
  (declared.filter fun pair => pair.1 == interface).map (·.2)

/-- The definition is a type that declares the interface. -/
def Definition.Implements (d : Definition m) (interface : String) : Prop :=
  d.isType = true ∧ interface ∈ d.interfaces

instance (d : Definition m) (interface : String) : Decidable (d.Implements interface) :=
  inferInstanceAs (Decidable (_ ∧ _))

theorem Definition.mem_declaredInterfaces {d : Definition m} {interface x : String} :
    (interface, x) ∈ d.declaredInterfaces ↔ d.Implements interface ∧ d.identifier = x := by
  unfold Definition.declaredInterfaces Definition.Implements
  split
  · rename_i htype
    simp [htype]
  · rename_i htype
    simp [htype]

theorem mem_listedFor {declared : List (String × String)} {interface x : String} :
    x ∈ listedFor declared interface ↔ (interface, x) ∈ declared := by
  simp [listedFor]

/-- Listed for an interface are the identifiers of the types that declare it. -/
theorem mem_listedFor_flatMap {ds : List (Definition m)} {interface x : String} :
    x ∈ listedFor (ds.flatMap Definition.declaredInterfaces) interface ↔
      ∃ d ∈ ds, d.Implements interface ∧ d.identifier = x := by
  simp only [mem_listedFor, List.mem_flatMap, Definition.mem_declaredInterfaces]

namespace Registry

/-- Notes one interface of a type. -/
def noteImplementor (table : SortedMap SortedSet) (pair : String × String) : SortedMap SortedSet :=
  table.insert pair.1 (((table.get? pair.1).getD ∅).insert pair.2)

theorem noteInterfaces_eq_foldl (table : SortedMap SortedSet) (d : Definition m) :
    noteInterfaces table d = d.declaredInterfaces.foldl noteImplementor table := by
  unfold noteInterfaces Definition.declaredInterfaces
  split
  · rw [List.foldl_map]
    rfl
  · rfl

theorem get?_foldl_noteImplementor_map (x : String) (interfaces : List String)
    (table : SortedMap SortedSet) (interface : String) :
    ((interfaces.map fun i => (i, x)).foldl noteImplementor table).get? interface =
      if interface ∈ interfaces then some (((table.get? interface).getD ∅).insert x)
      else table.get? interface := by
  induction interfaces generalizing table with
  | nil => simp
  | cons i rest ih =>
    rw [List.map_cons, List.foldl_cons, ih, noteImplementor, SortedMap.get?_insert]
    by_cases heq : interface = i
    · -- declaring the interface again adds nothing
      subst heq
      simp [SortedSet.insert_insert_self]
    · simp [heq]

/-- The turn of a definition adds its identifier under the interfaces that it implements. -/
theorem get?_noteInterfaces (table : SortedMap SortedSet) (d : Definition m) (interface : String) :
    (noteInterfaces table d).get? interface =
      if d.Implements interface then some (((table.get? interface).getD ∅).insert d.identifier)
      else table.get? interface := by
  rw [noteInterfaces_eq_foldl]
  unfold Definition.declaredInterfaces Definition.Implements
  by_cases htype : d.isType = true
  · simp [htype, get?_foldl_noteImplementor_map]
  · simp [htype]

/-- Under an interface stand the identifiers that were noted for it; an interface of which nothing was
noted is no key. -/
theorem get?_foldl_noteImplementor (declared : List (String × String)) (interface : String) :
    (declared.foldl noteImplementor ∅).get? interface =
      SortedSet.ofList? (listedFor declared interface) := by
  induction declared using List.reverseRecOn with
  | nil => rfl
  | append_singleton declared pair ih =>
    obtain ⟨i, x⟩ := pair
    rw [List.foldl_append, List.foldl_cons, List.foldl_nil, noteImplementor, SortedMap.get?_insert]
    by_cases heq : interface = i
    · subst heq
      have hlisted : listedFor (declared ++ [(interface, x)]) interface =
          listedFor declared interface ++ [x] := by
        simp [listedFor]
      rw [if_pos rfl, ih, SortedSet.getD_ofList?, hlisted, SortedSet.ofList?_append_singleton]
    · have hlisted : listedFor (declared ++ [(i, x)]) interface = listedFor declared interface := by
        simp [listedFor, Ne.symm heq]
      rw [if_neg heq, ih, hlisted]

theorem implementors_register (builtinSource : String) (r : Registry m) (d : Definition m) :
    (register builtinSource r d).implementors = noteInterfaces r.implementors d := by
  unfold register
  dsimp only
  split
  · cases d.category <;> rfl
  · rfl

theorem implementors_foldl_register (builtinSource : String) (ds : List (Definition m))
    (r : Registry m) :
    (ds.foldl (register builtinSource) r).implementors =
      (ds.flatMap Definition.declaredInterfaces).foldl noteImplementor r.implementors := by
  induction ds generalizing r with
  | nil => rfl
  | cons d ds ih =>
    rw [List.foldl_cons, ih, implementors_register, noteInterfaces_eq_foldl, List.flatMap_cons,
      List.foldl_append]

theorem get?_implementors_ofDefinitions (builtinSource : String) (ds : List (Definition m))
    (diagnostics : List Diagnostic) (interface : String) :
    (ofDefinitions builtinSource ds diagnostics).implementors.get? interface =
      SortedSet.ofList? (listedFor (ds.flatMap Definition.declaredInterfaces) interface) := by
  rw [ofDefinitions, implementors_foldl_register]
  exact get?_foldl_noteImplementor _ interface

/-- Directives add nothing to the interfaces. -/
theorem declaredInterfaces_filter_types (ds : List (Definition m)) :
    (ds.filter (·.category = .type)).flatMap Definition.declaredInterfaces =
      ds.flatMap Definition.declaredInterfaces := by
  induction ds with
  | nil => rfl
  | cons d ds ih =>
    rw [List.flatMap_cons, ← ih]
    by_cases hcategory : d.category = .type
    · rw [List.filter_cons_of_pos (by simpa using hcategory), List.flatMap_cons]
    · have hnone : d.declaredInterfaces = [] := by
        unfold Definition.declaredInterfaces
        rw [if_neg (Definition.isType_iff.not.2 hcategory)]
      rw [List.filter_cons_of_neg (by simpa using hcategory), hnone, List.nil_append]

/-- In whatever order types declare their interfaces, the same is noted. -/
theorem implementors_ofDefinitions_perm (builtinSource : String) {ds ds' : List (Definition m)}
    (hperm : ds.Perm ds') (diagnostics diagnostics' : List Diagnostic) :
    (ofDefinitions builtinSource ds diagnostics).implementors =
      (ofDefinitions builtinSource ds' diagnostics').implementors := by
  apply SortedMap.ext_get?
  intro interface
  rw [get?_implementors_ofDefinitions, get?_implementors_ofDefinitions]
  have hdeclared := hperm.flatMap_right Definition.declaredInterfaces
  exact SortedSet.ofList?_perm ((hdeclared.filter _).map _)

end Registry

/-! ## Exports -/

/-- The identifiers of the definitions that are to be exported. -/
def Definition.exportedIdentifiers (builtinSource : String) (ds : List (Definition m)) :
    List String :=
  (ds.filter (·.isExported builtinSource)).map (·.identifier)

namespace Registry

theorem exports_register (builtinSource : String) (r : Registry m) (d : Definition m) :
    (register builtinSource r d).exports = noteExport builtinSource r.exports d := by
  unfold register
  dsimp only
  split
  · cases d.category <;> rfl
  · rfl

theorem mem_noteExport {builtinSource : String} {exports : SortedSet} {d : Definition m} {x : String} :
    x ∈ noteExport builtinSource exports d ↔
      x ∈ exports ∨ d.isExported builtinSource = true ∧ d.identifier = x := by
  unfold noteExport
  cases hexported : d.isExported builtinSource with
  | true => simp [SortedSet.mem_insert, or_comm, eq_comm]
  | false => simp

theorem exports_foldl_register (builtinSource : String) (ds : List (Definition m))
    (r : Registry m) :
    (ds.foldl (register builtinSource) r).exports =
      (Definition.exportedIdentifiers builtinSource ds).foldl SortedSet.insert r.exports := by
  induction ds generalizing r with
  | nil => rfl
  | cons d ds ih =>
    rw [List.foldl_cons, ih, exports_register, noteExport, Definition.exportedIdentifiers,
      Definition.exportedIdentifiers]
    cases hexported : d.isExported builtinSource with
    | true => rw [List.filter_cons_of_pos hexported, List.map_cons, List.foldl_cons, if_pos rfl]
    | false => rw [List.filter_cons_of_neg (by simp [hexported]), if_neg (by simp)]

theorem exports_ofDefinitions (builtinSource : String) (ds : List (Definition m))
    (diagnostics : List Diagnostic) :
    (ofDefinitions builtinSource ds diagnostics).exports =
      SortedSet.ofList (Definition.exportedIdentifiers builtinSource ds) := by
  rw [ofDefinitions, exports_foldl_register]
  rfl

theorem mem_exports_ofDefinitions {builtinSource : String} {ds : List (Definition m)}
    {diagnostics : List Diagnostic} {x : String} :
    x ∈ (ofDefinitions builtinSource ds diagnostics).exports ↔
      ∃ d ∈ ds, d.isExported builtinSource = true ∧ d.identifier = x := by
  rw [exports_ofDefinitions, SortedSet.mem_ofList]
  simp [Definition.exportedIdentifiers, and_assoc]

/-- In whatever order definitions have their turn, the same is exported. -/
theorem exports_ofDefinitions_perm (builtinSource : String) {ds ds' : List (Definition m)}
    (hperm : ds.Perm ds') (diagnostics diagnostics' : List Diagnostic) :
    (ofDefinitions builtinSource ds diagnostics).exports =
      (ofDefinitions builtinSource ds' diagnostics').exports := by
  rw [exports_ofDefinitions, exports_ofDefinitions]
  exact SortedSet.ofList_perm ((hperm.filter _).map _)

/-! ## The law -/

/-- What a registry notes of the definitions of a list. -/
structure NotesLaw (r : Registry m) (builtinSource : String) (ds : List (Definition m)) : Prop where
  /-- An identifier stands under an interface if and only if it is the one of a type that declares the
  interface. -/
  implementors : ∀ interface x,
    (∃ types, r.implementors.get? interface = some types ∧ x ∈ types) ↔
      ∃ d ∈ ds, d.Implements interface ∧ d.identifier = x
  /-- No interface is a key without a type that declares it and stands there. -/
  no_idle_key : ∀ interface types, r.implementors.get? interface = some types →
    ∃ d ∈ ds, d.Implements interface ∧ d.identifier ∈ types
  /-- An identifier is exported if and only if a definition with it is to be exported, be it a type or a
  directive. -/
  exports : ∀ x, x ∈ r.exports ↔ ∃ d ∈ ds, d.isExported builtinSource = true ∧ d.identifier = x

/-- What stands under a key is listed for it. -/
theorem get?_implementors_eq_some_iff {builtinSource : String} {ds : List (Definition m)}
    {diagnostics : List Diagnostic} {interface : String} {types : SortedSet} :
    (ofDefinitions builtinSource ds diagnostics).implementors.get? interface = some types ↔
      listedFor (ds.flatMap Definition.declaredInterfaces) interface ≠ [] ∧
        SortedSet.ofList (listedFor (ds.flatMap Definition.declaredInterfaces) interface) = types := by
  rw [get?_implementors_ofDefinitions, SortedSet.ofList?_eq_some_iff]

theorem mem_implementors_iff {builtinSource : String} {ds : List (Definition m)}
    {diagnostics : List Diagnostic} {interface x : String} :
    (∃ types, (ofDefinitions builtinSource ds diagnostics).implementors.get? interface = some types ∧
        x ∈ types) ↔
      ∃ d ∈ ds, d.Implements interface ∧ d.identifier = x := by
  rw [← mem_listedFor_flatMap]
  constructor
  · rintro ⟨types, htypes, hx⟩
    obtain ⟨-, rfl⟩ := get?_implementors_eq_some_iff.1 htypes
    exact SortedSet.mem_ofList.1 hx
  · intro hx
    -- what is listed keeps the set from being left out
    exact ⟨_, get?_implementors_eq_some_iff.2 ⟨List.ne_nil_of_mem hx, rfl⟩, SortedSet.mem_ofList.2 hx⟩

theorem exists_implements_of_key {builtinSource : String} {ds : List (Definition m)}
    {diagnostics : List Diagnostic} {interface : String} {types : SortedSet}
    (h : (ofDefinitions builtinSource ds diagnostics).implementors.get? interface = some types) :
    ∃ d ∈ ds, d.Implements interface ∧ d.identifier ∈ types := by
  obtain ⟨hlisted, rfl⟩ := get?_implementors_eq_some_iff.1 h
  obtain ⟨x, hx⟩ := List.exists_mem_of_ne_nil _ hlisted
  obtain ⟨d, hd, himplements, rfl⟩ := mem_listedFor_flatMap.1 hx
  exact ⟨d, hd, himplements, SortedSet.mem_ofList.2 hx⟩

end Registry

/-- Whatever definitions have their turn and however many of them conflict, the notes are complete and
exact. So both tables are the same for every arrangement of the definitions. -/
theorem notes_complete_and_exact (builtinSource : String) (ds : List (Definition m))
    (diagnostics : List Diagnostic) :
    (Registry.ofDefinitions builtinSource ds diagnostics).NotesLaw builtinSource ds ∧
      ∀ ds', ds.Perm ds' → ∀ diagnostics',
        (Registry.ofDefinitions builtinSource ds diagnostics).implementors =
            (Registry.ofDefinitions builtinSource ds' diagnostics').implementors ∧
          (Registry.ofDefinitions builtinSource ds diagnostics).exports =
            (Registry.ofDefinitions builtinSource ds' diagnostics').exports := by
  refine ⟨?_, ?_⟩
  · constructor
    case implementors =>
      intro interface x
      exact Registry.mem_implementors_iff
    case no_idle_key =>
      intro interface types htypes
      exact Registry.exists_implements_of_key htypes
    case exports =>
      intro x
      exact Registry.mem_exports_ofDefinitions
  · intro ds' hperm diagnostics'
    exact ⟨Registry.implementors_ofDefinitions_perm builtinSource hperm diagnostics diagnostics',
      Registry.exports_ofDefinitions_perm builtinSource hperm diagnostics diagnostics'⟩

end SchemaRegistry
