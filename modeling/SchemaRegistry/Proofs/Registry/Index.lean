import Mathlib.Data.List.Induction
import Mathlib.Data.List.Nodup
import SchemaRegistry.Registry.Index
import SchemaRegistry.Proofs.SortedMap

/-!
# The index of registered definitions

`Index.ofRegistered` is the index after definitions have been registered one after the other. Its tables
are read off the list of these definitions: which identifiers and names are taken, and, as long as no
identifier is taken twice, which slot stands under an identifier (`find?_ofRegistered`).
-/

namespace SchemaRegistry

variable {m : Type → Type}

/-! ## Lists with distinct keys -/

section Keys

variable {α κ : Type} [BEq κ] [LawfulBEq κ] {f : α → κ} {xs ys : List α}

/-- Where keys are distinct, a key leads to the element that has it. -/
theorem find?_key_eq_some_iff (h : (xs.map f).Nodup) {k : κ} {x : α} :
    xs.find? (fun y => f y == k) = some x ↔ x ∈ xs ∧ f x = k := by
  constructor
  · intro hfind
    exact ⟨List.mem_of_find?_eq_some hfind, by simpa using List.find?_some hfind⟩
  · rintro ⟨hx, rfl⟩
    cases hfind : xs.find? (fun y => f y == f x) with
    | none => exact absurd (List.find?_eq_none.1 hfind x hx) (by simp)
    | some y =>
      have hy := List.mem_of_find?_eq_some hfind
      have heq : f y = f x := by simpa using List.find?_some hfind
      rw [List.inj_on_of_nodup_map h hy hx heq]

/-- A key leads to the same element however the list is arranged. -/
theorem find?_key_perm (h : (xs.map f).Nodup) (hperm : xs.Perm ys) (k : κ) :
    xs.find? (fun y => f y == k) = ys.find? (fun y => f y == k) := by
  have hys : (ys.map f).Nodup := (hperm.map f).nodup_iff.1 h
  apply Option.ext
  intro x
  rw [find?_key_eq_some_iff h, find?_key_eq_some_iff hys, hperm.mem_iff]

end Keys

/-! ## The index of a list -/

/-- The slot of a definition. -/
def Slot.ofDefinition (d : Definition m) : Slot m := ⟨d.identifier, .ofDefinition d⟩

@[simp] theorem Slot.identifier_ofDefinition (d : Definition m) :
    (Slot.ofDefinition d).identifier = d.identifier := rfl

namespace Index

/-- The index with the given definitions, registered in their order. -/
def ofRegistered (held : List (Definition m)) : Index m := held.foldl insert {}

@[simp] theorem ofRegistered_nil : ofRegistered ([] : List (Definition m)) = {} := rfl

@[simp] theorem ofRegistered_append_singleton (held : List (Definition m)) (d : Definition m) :
    ofRegistered (held ++ [d]) = (ofRegistered held).insert d := by
  rw [ofRegistered, List.foldl_append, List.foldl_cons, List.foldl_nil, ← ofRegistered]

theorem slots_ofRegistered (held : List (Definition m)) :
    (ofRegistered held).slots = held.map Slot.ofDefinition := by
  induction held using List.reverseRecOn with
  | nil => rfl
  | append_singleton held d ih =>
    rw [ofRegistered_append_singleton, List.map_append, ← ih]
    rfl

theorem contains_names_ofRegistered (held : List (Definition m)) (identifier : String) :
    (ofRegistered held).names.contains identifier = held.any (·.identifier == identifier) := by
  induction held using List.reverseRecOn with
  | nil => rfl
  | append_singleton held d ih =>
    rw [ofRegistered_append_singleton, List.any_append, ← ih]
    simp only [insert, SortedMap.contains_insert, List.any_cons, List.any_nil, Bool.or_false]
    rw [Bool.or_comm, Bool.beq_comm]

theorem contains_aliases_ofRegistered (held : List (Definition m)) (name : String) :
    (ofRegistered held).aliases.contains name = held.any (·.name == name) := by
  induction held using List.reverseRecOn with
  | nil => rfl
  | append_singleton held d ih =>
    rw [ofRegistered_append_singleton, List.any_append, ← ih]
    simp only [insert, SortedMap.contains_insertIfNew, List.any_cons, List.any_nil, Bool.or_false]
    rw [Bool.or_comm, Bool.beq_comm]

/-- The identifier under which a definition is registered, with its declared name. -/
def entry (d : Definition m) : String × String := (d.identifier, d.name)

theorem names_ofRegistered (held : List (Definition m)) :
    (ofRegistered held).names = .ofList (held.map entry) := by
  induction held using List.reverseRecOn with
  | nil => rfl
  | append_singleton held d ih =>
    rw [ofRegistered_append_singleton, List.map_append, List.map_singleton,
      SortedMap.ofList_append_singleton, ← ih]
    rfl

/-- A declared name leads to the identifier of the definition that was registered with it first. -/
theorem get?_aliases_ofRegistered (held : List (Definition m)) (name : String) :
    (ofRegistered held).aliases.get? name =
      (held.find? (·.name == name)).map (·.identifier) := by
  induction held using List.reverseRecOn with
  | nil => rfl
  | append_singleton held d ih =>
    rw [ofRegistered_append_singleton, List.find?_append, Option.map_or, ← ih]
    simp only [insert, SortedMap.get?_insertIfNew]
    by_cases heq : name = d.name
    · subst heq
      cases (ofRegistered held).aliases.get? d.name <;> simp
    · have hbeq : (d.name == name) = false := by simpa using Ne.symm heq
      simp [heq, hbeq]

/-! ## Distinct identifiers -/

section Distinct

variable {held : List (Definition m)}

theorem identifier_fresh {d : Definition m} (h : ((held ++ [d]).map (·.identifier)).Nodup) :
    (held.map (·.identifier)).Nodup ∧ ∀ e ∈ held, e.identifier ≠ d.identifier := by
  rw [List.map_append, List.nodup_append] at h
  refine ⟨h.1, fun e he => ?_⟩
  exact h.2.2 e.identifier (List.mem_map_of_mem he) d.identifier (by simp)

/-- There are as many registered identifiers as definitions. -/
theorem size_names_ofRegistered (h : (held.map (·.identifier)).Nodup) :
    (ofRegistered held).names.size = held.length := by
  induction held using List.reverseRecOn with
  | nil => rfl
  | append_singleton held d ih =>
    obtain ⟨hheld, hfresh⟩ := identifier_fresh h
    have hnew : (ofRegistered held).names.contains d.identifier = false := by
      rw [contains_names_ofRegistered]
      simpa using hfresh
    rw [ofRegistered_append_singleton, List.length_append, ← ih hheld]
    exact SortedMap.size_insert d.name hnew

theorem get?_positions_ofRegistered (h : (held.map (·.identifier)).Nodup) (identifier : String) :
    (ofRegistered held).positions.get? identifier =
      held.findIdx? (·.identifier == identifier) := by
  induction held using List.reverseRecOn with
  | nil => rfl
  | append_singleton held d ih =>
    obtain ⟨hheld, hfresh⟩ := identifier_fresh h
    have hlength : (ofRegistered held).slots.length = held.length := by
      rw [slots_ofRegistered, List.length_map]
    rw [ofRegistered_append_singleton, List.findIdx?_append]
    simp only [insert, SortedMap.get?_insert, hlength, ih hheld]
    by_cases heq : identifier = d.identifier
    · have hnone : held.findIdx? (·.identifier == d.identifier) = none := by
        rw [List.findIdx?_eq_none_iff]
        intro e he
        simpa using hfresh e he
      simp [heq, hnone]
    · have hbeq : (d.identifier == identifier) = false := by simpa using Ne.symm heq
      simp [heq, hbeq]

/-- An identifier leads to the declared name of the definition that was registered with it. -/
theorem get?_names_ofRegistered (h : (held.map (·.identifier)).Nodup) (identifier : String) :
    (ofRegistered held).names.get? identifier =
      (held.find? (·.identifier == identifier)).map (·.name) := by
  induction held using List.reverseRecOn with
  | nil => rfl
  | append_singleton held d ih =>
    obtain ⟨hheld, hfresh⟩ := identifier_fresh h
    rw [ofRegistered_append_singleton, List.find?_append, Option.map_or, ← ih hheld]
    simp only [insert, SortedMap.get?_insert]
    by_cases heq : identifier = d.identifier
    · -- nothing has been registered under the identifier of `d` before
      subst heq
      have hnone : (ofRegistered held).names.get? d.identifier = none := by
        rw [ih hheld, Option.map_eq_none_iff, List.find?_eq_none]
        intro e he
        simpa using hfresh e he
      simp [hnone]
    · have hbeq : (d.identifier == identifier) = false := by simpa using Ne.symm heq
      simp [heq, hbeq]

/-- Under an identifier stands the slot of the definition that was registered with it. -/
theorem find?_ofRegistered (h : (held.map (·.identifier)).Nodup) (identifier : String) :
    (ofRegistered held).find? identifier =
      (held.find? (·.identifier == identifier)).map Slot.ofDefinition := by
  unfold find?
  rw [get?_positions_ofRegistered h, slots_ofRegistered, List.find?_eq_bind_findIdx?_getElem?]
  simp only [Option.bind_eq_bind, List.getElem?_map, Option.map_bind]
  rfl

/-- A key leads to the definition that was registered with it as identifier, and if there is none to the
first definition with this name. -/
theorem resolve?_ofRegistered (h : (held.map (·.identifier)).Nodup) (key : String) :
    (ofRegistered held).resolve? key =
      ((held.find? (·.identifier == key)).or (held.find? (·.name == key))).map
        Slot.ofDefinition := by
  unfold resolve?
  rw [find?_ofRegistered h, get?_aliases_ofRegistered]
  cases held.find? (·.identifier == key) with
  | some d => rfl
  | none =>
    cases hname : held.find? (·.name == key) with
    | none => rfl
    | some d =>
      have hd : d ∈ held := List.mem_of_find?_eq_some hname
      have hown : held.find? (·.identifier == d.identifier) = some d :=
        (find?_key_eq_some_iff h).2 ⟨hd, rfl⟩
      have hslot := find?_ofRegistered h d.identifier
      rw [hown] at hslot
      exact hslot

/-! ## Rearranged definitions -/

variable {held' : List (Definition m)}

/-- The names by identifier do not depend on the order of registration. -/
theorem names_ofRegistered_perm (h : (held.map (·.identifier)).Nodup) (hperm : held.Perm held') :
    (ofRegistered held).names = (ofRegistered held').names := by
  have h' : (held'.map (·.identifier)).Nodup := (hperm.map _).nodup_iff.1 h
  apply SortedMap.ext_get?
  intro identifier
  rw [get?_names_ofRegistered h, get?_names_ofRegistered h', find?_key_perm h hperm]

/-- If names are distinct as well, every key leads to the same slot. -/
theorem resolve?_ofRegistered_perm (h : (held.map (·.identifier)).Nodup)
    (hnames : (held.map (·.name)).Nodup) (hperm : held.Perm held') (key : String) :
    (ofRegistered held).resolve? key = (ofRegistered held').resolve? key := by
  have h' : (held'.map (·.identifier)).Nodup := (hperm.map _).nodup_iff.1 h
  rw [resolve?_ofRegistered h, resolve?_ofRegistered h', find?_key_perm h hperm,
    find?_key_perm hnames hperm]

/-- Even if they are not, a registered identifier leads to the same slot. -/
theorem resolve?_identifier_perm (h : (held.map (·.identifier)).Nodup) (hperm : held.Perm held')
    {d : Definition m} (hd : d ∈ held) :
    (ofRegistered held).resolve? d.identifier = (ofRegistered held').resolve? d.identifier := by
  have h' : (held'.map (·.identifier)).Nodup := (hperm.map _).nodup_iff.1 h
  -- the search by identifier succeeds in both, so it never comes to the names
  have hfound : held.find? (·.identifier == d.identifier) = some d :=
    (find?_key_eq_some_iff h).2 ⟨hd, rfl⟩
  have hfound' : held'.find? (·.identifier == d.identifier) = some d :=
    (find?_key_eq_some_iff h').2 ⟨hperm.mem_iff.1 hd, rfl⟩
  rw [resolve?_ofRegistered h, resolve?_ofRegistered h', hfound, hfound', Option.some_or,
    Option.some_or]

end Distinct

end Index

end SchemaRegistry
