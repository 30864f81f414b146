import SchemaRegistry.Registry.Lookup
import SchemaRegistry.Proofs.Registry.Turn

/-!
# What is found under a key

Callers look up by identifier or by declared name, other registries find by identifier only. What both
answer is decided by the registered definitions alone: an identifier leads to its definition, also where
it is the name of another one, and a name that is no identifier leads to the first definition that has
it, but only for callers (`Registry.LookupLaw`). This holds for every category, every key and every
history of registrations and conflicts (`lookup_law`).

Nothing is said about how a slot is realized. The answers are those of an arbitrary `Realization`, so
the law holds if artifacts are obtained anew, and if answers are kept.
-/

namespace SchemaRegistry

variable {m : Type → Type}

/-! ## Answers of a definition -/

/-- What a way of realizing slots makes of the slot of a definition. Without a definition there is no
artifact. -/
def Definition.answer {n : Type → Type} [Monad n] (realize : Realization m n) (category : Category) :
    Option (Definition m) → n (Option Artifact)
  | some d => realize category (Slot.ofDefinition d)
  | none => pure none

/-- If artifacts are obtained anew, the answer is what the producer of the definition realizes. -/
example [Monad m] (category : Category) (d : Definition m) :
    Definition.answer Slot.realize category (some d) = (Producer.ofDefinition d).realize := rfl

namespace Registry

/-- Callers who look up the key get the answer of this definition. -/
def LooksUp (r : Registry m) (category : Category) (key : String) (d? : Option (Definition m)) :
    Prop :=
  ∀ (n : Type → Type) [Monad n] (realize : Realization m n),
    r.lookup realize category key = Definition.answer realize category d?

/-- Other registries that ask for the key get the answer of this definition. -/
def Finds (r : Registry m) (category : Category) (key : String) (d? : Option (Definition m)) :
    Prop :=
  ∀ (n : Type → Type) [Monad n] (realize : Realization m n),
    r.find realize category key = Definition.answer realize category d?

section Holds

variable {r : Registry m} {held : List (Definition m)}

/-- Callers get the definition with the identifier, or else the first one with the name. -/
theorem Holds.looksUp (h : r.Holds held) (hcompatible : Definition.Compatible held)
    (category : Category) (key : String) :
    r.LooksUp category key
      (((held.filter (·.category = category)).find? (·.identifier == key)).or
        ((held.filter (·.category = category)).find? (·.name == key))) := by
  intro n _ realize
  unfold lookup
  rw [h category, Index.resolve?_ofRegistered (hcompatible.nodup_identifiers category)]
  cases ((held.filter (·.category = category)).find? (·.identifier == key)).or
    ((held.filter (·.category = category)).find? (·.name == key)) <;> rfl

/-- Other registries get the definition with the identifier only. -/
theorem Holds.finds (h : r.Holds held) (hcompatible : Definition.Compatible held)
    (category : Category) (key : String) :
    r.Finds category key
      ((held.filter (·.category = category)).find? (·.identifier == key)) := by
  intro n _ realize
  unfold find
  rw [h category, Index.find?_ofRegistered (hcompatible.nodup_identifiers category)]
  cases (held.filter (·.category = category)).find? (·.identifier == key) <;> rfl

end Holds

/-! ## The law -/

/-- What a registry answers in a category, where `registered p d` says that the definition `d` at
position `p` is registered in this category. -/
structure LookupLaw (r : Registry m) (category : Category)
    (registered : Nat → Definition m → Prop) : Prop where
  /-- A registered identifier leads to its definition, whatever names the others have. -/
  by_identifier : ∀ p d, registered p d →
    r.LooksUp category d.identifier (some d) ∧ r.Finds category d.identifier (some d)
  /-- A name that is no registered identifier leads callers to the earliest definition that has it. Other
  registries find nothing under it. -/
  by_name : ∀ p d, registered p d → (∀ q e, registered q e → e.identifier ≠ d.name) →
    (∀ q e, registered q e → e.name = d.name → p ≤ q) →
    r.LooksUp category d.name (some d) ∧ r.Finds category d.name none
  /-- Under any other key there is nothing. -/
  absent : ∀ key, (∀ q e, registered q e → e.identifier ≠ key ∧ e.name ≠ key) →
    r.LooksUp category key none ∧ r.Finds category key none
  /-- So a definition is found under its name as well as under its identifier, unless the name is another
  registered identifier or, with directives, an earlier directive has it. -/
  same_answer : ∀ p d, registered p d →
    (∀ q e, registered q e → e.identifier = d.name → e.identifier = d.identifier) →
    (category = .directive → ∀ q e, registered q e → e.name = d.name → p ≤ q) →
    ∀ (n : Type → Type) [Monad n] (realize : Realization m n),
      r.lookup realize category d.name = r.lookup realize category d.identifier
  /-- Every answer is the one of a registered definition that has the key, or there is none. -/
  answered : ∀ key, ∃ d? e?, r.LooksUp category key d? ∧ r.Finds category key e? ∧
    (∀ d ∈ d?, ∃ p, registered p d ∧ (d.identifier = key ∨ d.name = key)) ∧
    ∀ e ∈ e?, ∃ p, registered p e ∧ e.identifier = key

/-- The definition at position `p` is of the category and is registered when it has its turn. -/
def RegisteredIn (builtinSource : String) (diagnostics : List Diagnostic) (ds : List (Definition m))
    (category : Category) (p : Nat) (d : Definition m) : Prop :=
  RegisteredAt builtinSource diagnostics ds p d ∧ d.category = category

section Law

variable {builtinSource : String} {diagnostics : List Diagnostic} {ds : List (Definition m)}
  {category : Category}

theorem registeredIn_iff {p : Nat} {d : Definition m} :
    RegisteredIn builtinSource diagnostics ds category p d ↔
      Definition.AcceptedAt ds p d ∧ d.category = category := by
  rw [RegisteredIn, registeredAt_iff]

/-- The definitions that a category holds are those registered in it. -/
theorem mem_held_iff {d : Definition m} :
    d ∈ (Definition.accepted ds).filter (·.category = category) ↔
      ∃ p, RegisteredIn builtinSource diagnostics ds category p d := by
  simp only [List.mem_filter, Definition.mem_accepted_iff, registeredIn_iff, decide_eq_true_eq]
  constructor
  · rintro ⟨⟨p, hp⟩, hcategory⟩
    exact ⟨p, hp, hcategory⟩
  · rintro ⟨p, hp, hcategory⟩
    exact ⟨⟨p, hp⟩, hcategory⟩

/-- The slots of a category are those of the definitions registered in it. -/
theorem mem_slots_iff {slot : Slot m} :
    slot ∈ ((ofDefinitions builtinSource ds diagnostics).index category).slots ↔
      ∃ p d, RegisteredIn builtinSource diagnostics ds category p d ∧ slot = Slot.ofDefinition d := by
  rw [(ofDefinitions_holds builtinSource ds diagnostics).slots category, List.mem_map]
  constructor
  · rintro ⟨d, hd, rfl⟩
    rcases mem_held_iff.1 hd with ⟨p, hp⟩
    exact ⟨p, d, hp, rfl⟩
  · rintro ⟨p, d, hp, rfl⟩
    exact ⟨d, mem_held_iff.2 ⟨p, hp⟩, rfl⟩

theorem RegisteredIn.find?_identifier {p : Nat} {d : Definition m}
    (h : RegisteredIn builtinSource diagnostics ds category p d) :
    ((Definition.accepted ds).filter (·.category = category)).find?
      (·.identifier == d.identifier) = some d :=
  (find?_key_eq_some_iff ((Definition.compatible_accepted ds).nodup_identifiers category)).2
    ⟨mem_held_iff.2 ⟨p, h⟩, rfl⟩

/-- Nothing is met by a search for what no registered definition has. -/
theorem find?_eq_none_of_registeredIn {f : Definition m → String} {key : String}
    (h : ∀ q e, RegisteredIn builtinSource diagnostics ds category q e → f e ≠ key) :
    ((Definition.accepted ds).filter (·.category = category)).find? (fun e => f e == key) =
      none := by
  rw [List.find?_eq_none]
  intro e he
  obtain ⟨q, hq⟩ := mem_held_iff.1 he
  simpa using h q e hq

/-- A search for the name of the earliest definition that has it meets this definition. -/
theorem RegisteredIn.find?_name {p : Nat} {d : Definition m}
    (h : RegisteredIn builtinSource diagnostics ds category p d)
    (hfirst : ∀ q e, RegisteredIn builtinSource diagnostics ds category q e → e.name = d.name →
      p ≤ q) :
    ((Definition.accepted ds).filter (·.category = category)).find? (·.name == d.name) = some d := by
  obtain ⟨haccepted, hcategory⟩ := registeredIn_iff.1 h
  obtain ⟨after, hafter⟩ := haccepted.exists_after
  rw [List.find?_eq_some_iff_append]
  refine ⟨by simp, (Definition.accepted (ds.take p)).filter (·.category = category),
    after.filter (·.category = category), ?_, ?_⟩
  · rw [hafter, List.filter_append, List.filter_cons_of_pos (by simpa using hcategory)]
  · -- whatever is accepted before `p` has its turn at an earlier position
    intro e he
    obtain ⟨hbefore, hcategory'⟩ := List.mem_filter.1 he
    obtain ⟨q, hlt, hq⟩ := Definition.mem_accepted_take_iff.1 hbefore
    have hregistered : RegisteredIn builtinSource diagnostics ds category q e :=
      registeredIn_iff.2 ⟨hq, by simpa using hcategory'⟩
    have hne : e.name ≠ d.name := by
      intro hname
      have hle := hfirst q e hregistered hname
      omega
    simpa using hne

/-- No type is registered after another one of its name. -/
theorem RegisteredIn.le_of_name_eq {p q : Nat} {d e : Definition m}
    (h : RegisteredIn builtinSource diagnostics ds .type p d)
    (h' : RegisteredIn builtinSource diagnostics ds .type q e) (hname : e.name = d.name) :
    p ≤ q := by
  obtain ⟨⟨hd, hnone⟩, hcategory⟩ := registeredIn_iff.1 h
  obtain ⟨haccepted, hcategory'⟩ := registeredIn_iff.1 h'
  by_contra hlt
  have hbefore : e ∈ Definition.accepted (ds.take p) :=
    Definition.mem_accepted_take_iff.2 ⟨q, by omega, haccepted⟩
  have htype : d.isType = true := Definition.isType_iff.2 hcategory
  exact Definition.conflictFindings_eq_nil_iff.1 hnone e hbefore
    ⟨hcategory'.trans hcategory.symm, .inr ⟨htype, hname⟩⟩

/-! ### Answers of a registry -/

theorem looksUp_ofDefinitions (builtinSource : String) (diagnostics : List Diagnostic)
    (ds : List (Definition m)) (category : Category) (key : String) :
    (ofDefinitions builtinSource ds diagnostics).LooksUp category key
      ((((Definition.accepted ds).filter (·.category = category)).find? (·.identifier == key)).or
        (((Definition.accepted ds).filter (·.category = category)).find? (·.name == key))) :=
  (ofDefinitions_holds builtinSource ds diagnostics).looksUp (Definition.compatible_accepted ds)
    category key

theorem finds_ofDefinitions (builtinSource : String) (diagnostics : List Diagnostic)
    (ds : List (Definition m)) (category : Category) (key : String) :
    (ofDefinitions builtinSource ds diagnostics).Finds category key
      (((Definition.accepted ds).filter (·.category = category)).find? (·.identifier == key)) :=
  (ofDefinitions_holds builtinSource ds diagnostics).finds (Definition.compatible_accepted ds)
    category key

theorem RegisteredIn.looksUp_identifier {p : Nat} {d : Definition m}
    (h : RegisteredIn builtinSource diagnostics ds category p d) :
    (ofDefinitions builtinSource ds diagnostics).LooksUp category d.identifier (some d) := by
  have hlook := looksUp_ofDefinitions builtinSource diagnostics ds category d.identifier
  rwa [h.find?_identifier] at hlook

theorem RegisteredIn.finds_identifier {p : Nat} {d : Definition m}
    (h : RegisteredIn builtinSource diagnostics ds category p d) :
    (ofDefinitions builtinSource ds diagnostics).Finds category d.identifier (some d) := by
  have hfind := finds_ofDefinitions builtinSource diagnostics ds category d.identifier
  rwa [h.find?_identifier] at hfind

theorem RegisteredIn.looksUp_name {p : Nat} {d : Definition m}
    (h : RegisteredIn builtinSource diagnostics ds category p d)
    (hfree : ∀ q e, RegisteredIn builtinSource diagnostics ds category q e →
      e.identifier ≠ d.name)
    (hfirst : ∀ q e, RegisteredIn builtinSource diagnostics ds category q e → e.name = d.name →
      p ≤ q) :
    (ofDefinitions builtinSource ds diagnostics).LooksUp category d.name (some d) := by
  have hlook := looksUp_ofDefinitions builtinSource diagnostics ds category d.name
  rwa [find?_eq_none_of_registeredIn hfree, h.find?_name hfirst] at hlook

theorem finds_none {key : String}
    (h : ∀ q e, RegisteredIn builtinSource diagnostics ds category q e → e.identifier ≠ key) :
    (ofDefinitions builtinSource ds diagnostics).Finds category key none := by
  have hfind := finds_ofDefinitions builtinSource diagnostics ds category key
  rwa [find?_eq_none_of_registeredIn h] at hfind

theorem looksUp_none {key : String}
    (h : ∀ q e, RegisteredIn builtinSource diagnostics ds category q e →
      e.identifier ≠ key ∧ e.name ≠ key) :
    (ofDefinitions builtinSource ds diagnostics).LooksUp category key none := by
  have hlook := looksUp_ofDefinitions builtinSource diagnostics ds category key
  rwa [find?_eq_none_of_registeredIn fun q e hq => (h q e hq).1,
    find?_eq_none_of_registeredIn fun q e hq => (h q e hq).2] at hlook

/-- A name that is not shadowed answers as the identifier does. -/
theorem RegisteredIn.lookup_name_eq {p : Nat} {d : Definition m}
    (h : RegisteredIn builtinSource diagnostics ds category p d)
    (hshadow : ∀ q e, RegisteredIn builtinSource diagnostics ds category q e →
      e.identifier = d.name → e.identifier = d.identifier)
    (hearliest : category = .directive → ∀ q e,
      RegisteredIn builtinSource diagnostics ds category q e → e.name = d.name → p ≤ q)
    (n : Type → Type) [Monad n] (realize : Realization m n) :
    (ofDefinitions builtinSource ds diagnostics).lookup realize category d.name =
      (ofDefinitions builtinSource ds diagnostics).lookup realize category d.identifier := by
  by_cases hsame : d.name = d.identifier
  · rw [hsame]
  · have hfree : ∀ q e, RegisteredIn builtinSource diagnostics ds category q e →
        e.identifier ≠ d.name := by
      intro q e hq heq
      exact hsame (heq.symm.trans (hshadow q e hq heq))
    have hfirst : ∀ q e, RegisteredIn builtinSource diagnostics ds category q e →
        e.name = d.name → p ≤ q := by
      cases category with
      | type => exact fun q e hq hname => h.le_of_name_eq hq hname
      | directive => exact hearliest rfl
    rw [h.looksUp_name hfree hfirst n realize, h.looksUp_identifier n realize]

/-- Every answer comes from a registered definition. -/
theorem exists_answers (builtinSource : String) (diagnostics : List Diagnostic)
    (ds : List (Definition m)) (category : Category) (key : String) :
    ∃ d? e?, (ofDefinitions builtinSource ds diagnostics).LooksUp category key d? ∧
      (ofDefinitions builtinSource ds diagnostics).Finds category key e? ∧
      (∀ d ∈ d?, ∃ p, RegisteredIn builtinSource diagnostics ds category p d ∧
        (d.identifier = key ∨ d.name = key)) ∧
      ∀ e ∈ e?, ∃ p, RegisteredIn builtinSource diagnostics ds category p e ∧
        e.identifier = key := by
  have hidentifier : ∀ e ∈ ((Definition.accepted ds).filter (·.category = category)).find?
      (·.identifier == key), ∃ p, RegisteredIn builtinSource diagnostics ds category p e ∧
        e.identifier = key := by
    intro e he
    obtain ⟨p, hp⟩ := mem_held_iff.1 (List.mem_of_find?_eq_some he)
    exact ⟨p, hp, by simpa using List.find?_some he⟩
  refine ⟨_, _, looksUp_ofDefinitions builtinSource diagnostics ds category key,
    finds_ofDefinitions builtinSource diagnostics ds category key, ?_, hidentifier⟩
  intro d hd
  rcases Option.or_eq_some_iff.1 hd with hd | ⟨-, hd⟩
  · obtain ⟨p, hp, hkey⟩ := hidentifier d hd
    exact ⟨p, hp, .inl hkey⟩
  · obtain ⟨p, hp⟩ := mem_held_iff.1 (List.mem_of_find?_eq_some hd)
    exact ⟨p, hp, .inr (by simpa using List.find?_some hd)⟩

/-- Without a definition that is refused the index of every category is the same. -/
theorem RefusedAt.index_eraseIdx {p : Nat} {d : Definition m}
    (h : RefusedAt builtinSource diagnostics ds p d) (category : Category) :
    (ofDefinitions builtinSource (ds.eraseIdx p) diagnostics).index category =
      (ofDefinitions builtinSource ds diagnostics).index category := by
  rw [ofDefinitions_holds builtinSource ds diagnostics category,
    ofDefinitions_holds builtinSource (ds.eraseIdx p) diagnostics category, h.accepted_eraseIdx]

end Law

end Registry

open Registry (RegisteredIn RefusedAt)

/-- Whatever definitions have had their turn, every lookup under every key obeys the law. A definition
that is refused is not among the registered ones, whose answers these are: under every key the answers
are the same as if it were not in the list. -/
theorem lookup_law (builtinSource : String) (diagnostics : List Diagnostic)
    (ds : List (Definition m)) (category : Category) :
    (Registry.ofDefinitions builtinSource ds diagnostics).LookupLaw category
        (RegisteredIn builtinSource diagnostics ds category) ∧
      ∀ p d, RefusedAt builtinSource diagnostics ds p d →
        (∀ e, ¬ RegisteredIn builtinSource diagnostics ds category p e) ∧
        ∀ (n : Type → Type) [Monad n] (realize : Realization m n) (key : String),
          (Registry.ofDefinitions builtinSource ds diagnostics).lookup realize category key =
            (Registry.ofDefinitions builtinSource (ds.eraseIdx p) diagnostics).lookup realize
              category key ∧
          (Registry.ofDefinitions builtinSource ds diagnostics).find realize category key =
            (Registry.ofDefinitions builtinSource (ds.eraseIdx p) diagnostics).find realize
              category key := by
  refine ⟨?_, ?_⟩
  · constructor
    case by_identifier =>
      intro p d hd
      exact ⟨hd.looksUp_identifier, hd.finds_identifier⟩
    case by_name =>
      intro p d hd hfree hfirst
      exact ⟨hd.looksUp_name hfree hfirst, Registry.finds_none hfree⟩
    case absent =>
      intro key hkey
      exact ⟨Registry.looksUp_none hkey, Registry.finds_none fun q e hq => (hkey q e hq).1⟩
    case same_answer =>
      intro p d hd hshadow hearliest n _ realize
      exact hd.lookup_name_eq hshadow hearliest n realize
    case answered =>
      intro key
      exact Registry.exists_answers builtinSource diagnostics ds category key
  · intro p d hd
    refine ⟨?_, ?_⟩
    · -- one position cannot be both registered and refused
      rintro e ⟨⟨he, hnone⟩, -⟩
      have heq : e = d := Option.some.inj (he.symm.trans hd.1)
      rw [heq] at hnone
      exact hd.2 hnone
    · intro n _ realize key
      have hindex := hd.index_eraseIdx category
      simp only [Registry.lookup, Registry.find, hindex, and_self]

end SchemaRegistry
