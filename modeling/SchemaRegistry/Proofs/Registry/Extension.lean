import SchemaRegistry.Registry.Lookup
import SchemaRegistry.Proofs.Registry.Invariant
import SchemaRegistry.Proofs.Registry.Notes

/-!
# Further definitions

Definitions that have their turn later change nothing of what is registered already. A registry extends
another one (`Registry.Extends`) if everything that stands in a table of the latter stands at the same
place in the former.

The turn of a definition extends every registry (`register_extends`). Inserting overwrites what stands
under an identifier, but a definition is only inserted if nothing stands there
(`Index.get?_names_of_conflicts`). Extending is transitive, so a whole run extends the registry it starts
from, and all that is found under a registered identifier is found there for good
(`later_definitions_only_extend`).
-/

namespace SchemaRegistry

variable {m : Type → Type}

/-! ## Indexes -/

namespace Index

/-- What stands in the tables of `old` stands in those of `new`. -/
structure Extends (new old : Index m) : Prop where
  /-- The slots of `old` come first, in their order and with their producers. -/
  slots : old.slots <+: new.slots
  /-- Identifiers keep their names, -/
  names : ∀ i n, old.names.get? i = some n → new.names.get? i = some n
  /-- names keep the identifier that they lead to, -/
  aliases : ∀ n i, old.aliases.get? n = some i → new.aliases.get? n = some i
  /-- and identifiers with a name keep their slot. -/
  found : ∀ i n slot, old.names.get? i = some n → old.find? i = some slot →
    new.find? i = some slot

theorem Extends.refl (index : Index m) : index.Extends index where
  slots := List.prefix_refl _
  names := by
    intro i n h
    exact h
  aliases := by
    intro n i h
    exact h
  found := by
    intro i n slot _ h
    exact h

theorem Extends.trans {i₁ i₂ i₃ : Index m} (h : i₃.Extends i₂) (h' : i₂.Extends i₁) :
    i₃.Extends i₁ where
  slots := h'.slots.trans h.slots
  names := by
    intro i n hname
    exact h.names i n (h'.names i n hname)
  aliases := by
    intro n i halias
    exact h.aliases n i (h'.aliases n i halias)
  found := by
    intro i n slot hname hfound
    exact h.found i n slot (h'.names i n hname) (h'.found i n slot hname hfound)

/-- If nothing stands against a definition, its identifier is new. -/
theorem get?_names_of_conflicts {index : Index m} {d : Definition m} (h : index.conflicts d = []) :
    index.names.get? d.identifier = none := by
  rw [← SortedMap.contains_eq_false_iff]
  by_contra htaken
  have htaken : index.names.contains d.identifier = true := by simpa using htaken
  unfold conflicts identifierConflict at h
  cases hcategory : d.category with
  | type => simp [hcategory, htaken] at h
  | directive => simp [hcategory, htaken] at h

/-- A definition with a new identifier takes nothing from those before it. -/
theorem insert_extends {index : Index m} {d : Definition m}
    (hnew : index.names.get? d.identifier = none) : (index.insert d).Extends index := by
  have hne : ∀ i n, index.names.get? i = some n → i ≠ d.identifier := by
    intro i n hname heq
    rw [heq, hnew] at hname
    cases hname
  constructor
  case slots =>
    exact List.prefix_append _ _
  case names =>
    intro i n hname
    exact (SortedMap.get?_insert_of_ne _ _ (hne i n hname)).trans hname
  case aliases =>
    intro n i halias
    have hkept : (index.aliases.insertIfNew d.name d.identifier).get? n = some i := by
      rw [SortedMap.get?_insertIfNew]
      by_cases heq : n = d.name
      · -- the name is not new, so its alias stays
        subst heq
        rw [if_pos rfl, halias, Option.getD_some]
      · rwa [if_neg heq]
    exact hkept
  case found =>
    intro i n slot hname hfound
    rcases Option.bind_eq_some_iff.1 hfound with ⟨p, hposition, hslot⟩
    have hkept : (index.insert d).positions.get? i = some p :=
      (SortedMap.get?_insert_of_ne _ _ (hne i n hname)).trans hposition
    rcases List.getElem?_eq_some_iff.1 hslot with ⟨hp, -⟩
    have hslot' : (index.insert d).slots[p]? = some slot := by
      have happend : (index.slots ++ [Slot.ofDefinition d])[p]? = index.slots[p]? :=
        List.getElem?_append_left hp
      exact happend.trans hslot
    exact Option.bind_eq_some_iff.2 ⟨p, hkept, hslot'⟩

end Index

/-! ## Registries -/

namespace Registry

/-- What stands in the tables of `old` stands in those of `new`. -/
structure Extends (new old : Registry m) : Prop where
  index : ∀ category, (new.index category).Extends (old.index category)
  /-- The findings of `old` come first. -/
  diagnostics : old.diagnostics <+: new.diagnostics
  /-- Whatever is exported stays exported, -/
  exports : ∀ x ∈ old.exports, x ∈ new.exports
  /-- and whatever stands under an interface stays there. -/
  implementors : ∀ interface types, old.implementors.get? interface = some types →
    ∃ types', new.implementors.get? interface = some types' ∧ ∀ x ∈ types, x ∈ types'

theorem Extends.refl (r : Registry m) : r.Extends r where
  index category := .refl _
  diagnostics := List.prefix_refl _
  exports := by
    intro x hx
    exact hx
  implementors := by
    intro interface types h
    exact ⟨types, h, fun x hx => hx⟩

theorem Extends.trans {r₁ r₂ r₃ : Registry m} (h : r₃.Extends r₂) (h' : r₂.Extends r₁) :
    r₃.Extends r₁ where
  index category := (h.index category).trans (h'.index category)
  diagnostics := h'.diagnostics.trans h.diagnostics
  exports := by
    intro x hx
    exact h.exports x (h'.exports x hx)
  implementors := by
    intro interface types₁ h₁
    rcases h'.implementors interface types₁ h₁ with ⟨types₂, h₂, hsub⟩
    rcases h.implementors interface types₂ h₂ with ⟨types₃, h₃, hsub'⟩
    exact ⟨types₃, h₃, fun x hx => hsub' x (hsub x hx)⟩

/-! ### One turn -/

/-- Whichever registry it is, the turn of a definition extends it. -/
theorem register_extends (builtinSource : String) (r : Registry m) (d : Definition m) :
    (register builtinSource r d).Extends r := by
  constructor
  case index =>
    intro category
    rw [index_register]
    split
    · rename_i haccepted
      rcases haccepted with ⟨hnone, rfl⟩
      exact Index.insert_extends (Index.get?_names_of_conflicts (List.isEmpty_iff.1 hnone))
    · exact .refl _
  case diagnostics =>
    rw [diagnostics_register]
    exact List.prefix_append _ _
  case exports =>
    intro x hx
    rw [exports_register, mem_noteExport]
    exact .inl hx
  case implementors =>
    intro interface types htypes
    rw [implementors_register, get?_noteInterfaces]
    by_cases himplements : d.Implements interface
    · rw [if_pos himplements, htypes, Option.getD_some]
      exact ⟨_, rfl, fun x hx => SortedSet.mem_insert.2 (.inr hx)⟩
    · rw [if_neg himplements]
      exact ⟨types, htypes, fun x hx => hx⟩

/-! ### A whole run -/

theorem foldl_register_extends (builtinSource : String) (ds : List (Definition m))
    (r : Registry m) : (ds.foldl (register builtinSource) r).Extends r := by
  induction ds generalizing r with
  | nil => exact .refl r
  | cons d ds ih =>
    -- the other turns extend what the first one leaves
    exact (ih (register builtinSource r d)).trans (register_extends builtinSource r d)

theorem ofDefinitions_append (builtinSource : String) (diagnostics : List Diagnostic)
    (ds ds' : List (Definition m)) :
    ofDefinitions builtinSource (ds ++ ds') diagnostics =
      ds'.foldl (register builtinSource) (ofDefinitions builtinSource ds diagnostics) := by
  rw [ofDefinitions, List.foldl_append, ← ofDefinitions]

/-- A registered identifier has a name and a slot. -/
theorem exists_found_of_mem_identifiers {builtinSource : String} {diagnostics : List Diagnostic}
    {ds : List (Definition m)} {category : Category} {identifier : String}
    (h : identifier ∈ (ofDefinitions builtinSource ds diagnostics).identifiers category) :
    ∃ name slot,
      ((ofDefinitions builtinSource ds diagnostics).index category).names.get? identifier =
        some name ∧
      ((ofDefinitions builtinSource ds diagnostics).index category).find? identifier =
        some slot := by
  have hholds := ofDefinitions_holds builtinSource ds diagnostics
  have hcompatible := Definition.compatible_accepted ds
  rw [identifiers, hholds.slots category, List.map_map] at h
  rcases List.mem_map.1 h with ⟨d, hd, rfl⟩
  refine ⟨d.name, Slot.ofDefinition d, ?_, ?_⟩
  · rw [hholds category]
    exact (Index.get?_names_eq_some_iff (hcompatible.nodup_identifiers category)).2
      ⟨d, hd, rfl, rfl⟩
  · rcases List.mem_filter.1 hd with ⟨haccepted, hcategory⟩
    have hcategory : d.category = category := by simpa using hcategory
    rw [← hcategory]
    exact hholds.find?_of_mem hcompatible haccepted

/-- What a registry finds under an identifier is what a registry that extends it answers. -/
theorem Extends.answers {r r' : Registry m} (h : r'.Extends r) {category : Category}
    {identifier name : String} {slot : Slot m}
    (hname : (r.index category).names.get? identifier = some name)
    (hfound : (r.index category).find? identifier = some slot)
    {n : Type → Type} [Monad n] (realize : Realization m n) :
    r'.lookup realize category identifier = r.lookup realize category identifier ∧
      r'.find realize category identifier = r.find realize category identifier := by
  have hfound' := (h.index category).found identifier name slot hname hfound
  -- the identifier is found, so no lookup comes to the names
  simp only [lookup, find, Index.resolve?, hfound, hfound', and_self]

end Registry

open Registry (ofDefinitions)

/-- Whatever definitions come after others, the registry of all of them extends the registry of the first
ones, and under each identifier that the first ones registered everybody gets the same answer as before,
however slots are realized. -/
theorem later_definitions_only_extend (builtinSource : String) (diagnostics : List Diagnostic)
    (ds later : List (Definition m)) :
    (ofDefinitions builtinSource (ds ++ later) diagnostics).Extends
        (ofDefinitions builtinSource ds diagnostics) ∧
      ∀ category, ∀ identifier ∈ (ofDefinitions builtinSource ds diagnostics).identifiers category,
        ∀ (n : Type → Type) [Monad n] (realize : Realization m n),
          (ofDefinitions builtinSource (ds ++ later) diagnostics).lookup realize category identifier =
              (ofDefinitions builtinSource ds diagnostics).lookup realize category identifier ∧
            (ofDefinitions builtinSource (ds ++ later) diagnostics).find realize category identifier =
              (ofDefinitions builtinSource ds diagnostics).find realize category identifier := by
  have hextends : (ofDefinitions builtinSource (ds ++ later) diagnostics).Extends
      (ofDefinitions builtinSource ds diagnostics) := by
    rw [Registry.ofDefinitions_append]
    exact Registry.foldl_register_extends builtinSource later _
  refine ⟨hextends, ?_⟩
  intro category identifier hidentifier n _ realize
  rcases Registry.exists_found_of_mem_identifiers hidentifier with ⟨name, slot, hname, hfound⟩
  exact hextends.answers hname hfound realize

/-- One user. -/
def earlyUsers : List (Definition Id) :=
  [{ category := .type, identifier := "user", name := "User", origin := .built .plain }]

/-- Another one with the same identifier, one with the same name, and one who is new. -/
def lateUsers : List (Definition Id) :=
  [{ category := .type, identifier := "user", name := "Latecomer", origin := .built .plain },
    { category := .type, identifier := "account", name := "User", origin := .built .plain },
    { category := .type, identifier := "admin", name := "Admin", origin := .built .plain }]

/-- Of those who come later only the last one is registered, and the first one is still found. -/
theorem late_users_only_extend :
    "user" ∈ (ofDefinitions "builtins" earlyUsers []).identifiers .type ∧
      (ofDefinitions "builtins" (earlyUsers ++ lateUsers) []).lookup Slot.realize .type "user" =
        (ofDefinitions "builtins" earlyUsers []).lookup Slot.realize .type "user" ∧
      (ofDefinitions "builtins" (earlyUsers ++ lateUsers) []).identifiers .type =
        ["user", "admin"] := by
  have huser : "user" ∈ (ofDefinitions "builtins" earlyUsers []).identifiers .type := by decide
  have hanswers := (later_definitions_only_extend "builtins" [] earlyUsers lateUsers).2 .type "user"
    huser Id Slot.realize
  exact ⟨huser, hanswers.1, by decide⟩

end SchemaRegistry
