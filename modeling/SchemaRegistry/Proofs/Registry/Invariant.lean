import SchemaRegistry.Proofs.Registry.Turn

/-!
# How the tables of an index fit together

An index has four tables that are written one after the other: slots are appended, names and positions
overwrite, aliases keep what stands there. They fit together (`Index.Coherent`) only because a definition
that conflicts never gets as far as being inserted. In every registry they do, after any number of
registrations (`coherent_ofDefinitions`).

The invariant that carries this is `Registry.Holds`, which every step keeps: the index is the one of a
list of definitions of its category with distinct identifiers, and with distinct names if they are types.
What each table says about such a list is in `Proofs.Registry.Index`.
-/

namespace SchemaRegistry

variable {m : Type → Type}

namespace Index

/-- The tables of the index of a category agree with each other, and with definitions of `ds`. -/
structure Coherent (index : Index m) (category : Category) (ds : List (Definition m)) : Prop where
  /-- No identifier has two slots. -/
  distinct : (index.slots.map (·.identifier)).Nodup
  /-- The identifiers of the slots are those that have a name, -/
  names_keys : ∀ i, i ∈ index.names.keys ↔ i ∈ index.slots.map (·.identifier)
  /-- and those that have a position. -/
  positions_keys : ∀ i, i ∈ index.positions.keys ↔ i ∈ index.slots.map (·.identifier)
  /-- The position of an identifier is within the slots, and its slot stands there. -/
  position : ∀ i p, index.positions.get? i = some p →
    ∃ h : p < index.slots.length, (index.slots[p]).identifier = i
  /-- The producer of a slot was made of a definition of the category with the identifier of the slot and
  the name that stands under it. -/
  producer : ∀ slot ∈ index.slots, ∃ d ∈ ds, d.category = category ∧
    d.identifier = slot.identifier ∧ index.names.get? slot.identifier = some d.name ∧
    slot.producer = .ofDefinition d
  /-- The aliases are the names. -/
  aliases_keys : ∀ n, n ∈ index.aliases.keys ↔ n ∈ index.names.values
  /-- A name leads to the first slot whose name it is. -/
  first : ∀ n i, index.aliases.get? n = some i →
    ∃ before slot after, index.slots = before ++ slot :: after ∧ slot.identifier = i ∧
      index.names.get? i = some n ∧
      ∀ earlier ∈ before, index.names.get? earlier.identifier ≠ some n
  /-- No two types have one name, -/
  injective : category = .type → ∀ i j n,
    index.names.get? i = some n → index.names.get? j = some n → i = j
  /-- so that for types the aliases are the names read backwards. -/
  inverse : category = .type → ∀ n i,
    index.aliases.get? n = some i ↔ index.names.get? i = some n

section OfRegistered

variable {held : List (Definition m)}

theorem identifiers_ofRegistered (held : List (Definition m)) :
    (ofRegistered held).slots.map (·.identifier) = held.map (·.identifier) := by
  rw [slots_ofRegistered, List.map_map]
  rfl

theorem mem_names_keys_ofRegistered {i : String} :
    i ∈ (ofRegistered held).names.keys ↔ i ∈ held.map (·.identifier) := by
  rw [SortedMap.mem_keys_iff, ← SortedMap.contains_iff, contains_names_ofRegistered]
  simp

theorem get?_names_eq_some_iff (h : (held.map (·.identifier)).Nodup) {i n : String} :
    (ofRegistered held).names.get? i = some n ↔ ∃ d ∈ held, d.identifier = i ∧ d.name = n := by
  rw [get?_names_ofRegistered h, Option.map_eq_some_iff]
  simp only [find?_key_eq_some_iff h, and_assoc]

theorem get?_aliases_eq_some_iff {i n : String} :
    (ofRegistered held).aliases.get? n = some i ↔
      ∃ before d after, held = before ++ d :: after ∧ d.identifier = i ∧ d.name = n ∧
        ∀ e ∈ before, e.name ≠ n := by
  rw [get?_aliases_ofRegistered, Option.map_eq_some_iff]
  simp only [List.find?_eq_some_iff_append]
  constructor
  · rintro ⟨d, ⟨hname, before, after, hsplit, hbefore⟩, hidentifier⟩
    refine ⟨before, d, after, hsplit, hidentifier, by simpa using hname, ?_⟩
    intro e he
    simpa using hbefore e he
  · rintro ⟨before, d, after, hsplit, hidentifier, hname, hbefore⟩
    refine ⟨d, ⟨by simpa using hname, before, after, hsplit, ?_⟩, hidentifier⟩
    intro e he
    simpa using hbefore e he

/-- Definitions with distinct identifiers, and distinct names if they are types, make a coherent
index. -/
theorem coherent_ofRegistered {category : Category} {ds : List (Definition m)}
    (hheld : ∀ d ∈ held, d ∈ ds ∧ d.category = category)
    (hidentifiers : (held.map (·.identifier)).Nodup)
    (hnames : category = .type → (held.map (·.name)).Nodup) :
    (ofRegistered held).Coherent category ds := by
  have hinjective : category = .type → ∀ i j n, (ofRegistered held).names.get? i = some n →
      (ofRegistered held).names.get? j = some n → i = j := by
    intro htype i j n hi hj
    obtain ⟨d, hd, rfl, hdn⟩ := (get?_names_eq_some_iff hidentifiers).1 hi
    obtain ⟨e, he, rfl, hen⟩ := (get?_names_eq_some_iff hidentifiers).1 hj
    rw [List.inj_on_of_nodup_map (hnames htype) hd he (hdn.trans hen.symm)]
  constructor
  case distinct =>
    rwa [identifiers_ofRegistered]
  case names_keys =>
    intro i
    rw [identifiers_ofRegistered, mem_names_keys_ofRegistered]
  case positions_keys =>
    intro i
    rw [identifiers_ofRegistered, SortedMap.mem_keys_iff, get?_positions_ofRegistered hidentifiers,
      ← Option.isSome_iff_exists, List.findIdx?_isSome]
    simp
  case position =>
    intro i p hp
    rw [get?_positions_ofRegistered hidentifiers, List.findIdx?_eq_some_iff_getElem] at hp
    obtain ⟨hlt, hidentifier, -⟩ := hp
    have hslots := slots_ofRegistered held
    refine ⟨by rwa [hslots, List.length_map], ?_⟩
    simpa [hslots] using hidentifier
  case producer =>
    intro slot hslot
    rw [slots_ofRegistered] at hslot
    obtain ⟨d, hd, rfl⟩ := List.mem_map.1 hslot
    have hname : (ofRegistered held).names.get? d.identifier = some d.name :=
      (get?_names_eq_some_iff hidentifiers).2 ⟨d, hd, rfl, rfl⟩
    exact ⟨d, (hheld d hd).1, (hheld d hd).2, rfl, hname, rfl⟩
  case aliases_keys =>
    intro n
    rw [SortedMap.mem_values_iff, SortedMap.mem_keys_iff, ← SortedMap.contains_iff,
      contains_aliases_ofRegistered]
    simp only [get?_names_eq_some_iff hidentifiers, List.any_eq_true, beq_iff_eq]
    constructor
    · rintro ⟨d, hd, hname⟩
      exact ⟨d.identifier, d, hd, rfl, hname⟩
    · rintro ⟨i, d, hd, -, hname⟩
      exact ⟨d, hd, hname⟩
  case first =>
    intro n i halias
    obtain ⟨before, d, after, hsplit, rfl, rfl, hbefore⟩ := get?_aliases_eq_some_iff.1 halias
    have hd : d ∈ held := by simp [hsplit]
    refine ⟨before.map Slot.ofDefinition, Slot.ofDefinition d, after.map Slot.ofDefinition, ?_, rfl,
      (get?_names_eq_some_iff hidentifiers).2 ⟨d, hd, rfl, rfl⟩, ?_⟩
    · rw [slots_ofRegistered, hsplit, List.map_append, List.map_cons]
    · intro slot hslot hname
      obtain ⟨e, he, rfl⟩ := List.mem_map.1 hslot
      have heheld : e ∈ held := by simp [hsplit, he]
      have hown := (get?_names_eq_some_iff hidentifiers).2 ⟨e, heheld, rfl, rfl⟩
      have hsame : some e.name = some d.name := hown.symm.trans hname
      exact hbefore e he (Option.some.inj hsame)
  case injective => exact hinjective
  case inverse =>
    intro htype n i
    constructor
    · intro halias
      obtain ⟨before, d, after, hsplit, hidentifier, hname, -⟩ := get?_aliases_eq_some_iff.1 halias
      exact (get?_names_eq_some_iff hidentifiers).2 ⟨d, by simp [hsplit], hidentifier, hname⟩
    · -- the name has an alias, and it is the only identifier with this name
      intro hname
      have hkey : (ofRegistered held).aliases.contains n = true := by
        obtain ⟨d, hd, -, hdn⟩ := (get?_names_eq_some_iff hidentifiers).1 hname
        rw [contains_aliases_ofRegistered, List.any_eq_true]
        exact ⟨d, hd, by simpa using hdn⟩
      obtain ⟨j, halias⟩ := SortedMap.contains_iff.1 hkey
      obtain ⟨before, d, after, hsplit, hidentifier, hdn, -⟩ := get?_aliases_eq_some_iff.1 halias
      have hother : (ofRegistered held).names.get? j = some n :=
        (get?_names_eq_some_iff hidentifiers).2 ⟨d, by simp [hsplit], hidentifier, hdn⟩
      rw [halias, hinjective htype i j n hname hother]

end OfRegistered

end Index

/-- In every registry the tables of each category fit together: whatever definitions have had their turn,
whatever was found before, and whatever the built-in library is called. -/
theorem coherent_ofDefinitions (builtinSource : String) (ds : List (Definition m))
    (diagnostics : List Diagnostic) (category : Category) :
    ((Registry.ofDefinitions builtinSource ds diagnostics).index category).Coherent category ds := by
  have hcompatible := Definition.compatible_accepted ds
  rw [Registry.ofDefinitions_holds builtinSource ds diagnostics category]
  refine Index.coherent_ofRegistered ?_ (hcompatible.nodup_identifiers category) ?_
  · intro d hd
    obtain ⟨haccepted, hcategory⟩ := List.mem_filter.1 hd
    exact ⟨Definition.mem_of_mem_accepted haccepted, by simpa using hcategory⟩
  · rintro rfl
    exact hcompatible.nodup_names

end SchemaRegistry
