import SchemaRegistry.Proofs.Registry.Invariant
import SchemaRegistry.Proofs.Registry.Lookup

/-!
# Several types with one identifier

If a list declares several types with one identifier, at most one of them is registered: the first one
whose name is free when it has its turn (`first_free_occurrence_wins`). Each later one is reported once
for its identifier. Those before it are reported for their names only, and reserve nothing. So it need
not be the first type with the identifier that is registered, and a later one may go unreported
(`first_occurrence_can_lose`).

Identifiers and names are checked independently of each other, but both against the registered
definitions only. What decides is therefore which definitions were accepted at earlier positions
(`Definition.mem_accepted_take_iff`).
-/

namespace SchemaRegistry

variable {m : Type → Type}

/-- The definition at position `p` is a type with the identifier. -/
def Definition.OccursAt (ds : List (Definition m)) (identifier : String) (p : Nat)
    (d : Definition m) : Prop :=
  ds[p]? = some d ∧ d.isTypeNamed identifier = true

/-- The definition at position `p` is the first type with the identifier. -/
structure Definition.FirstAt (ds : List (Definition m)) (identifier : String) (p : Nat)
    (d : Definition m) : Prop where
  occurs : OccursAt ds identifier p d
  first : ∀ q < p, ∀ e, ¬ OccursAt ds identifier q e

namespace Registry

/-! ## One turn -/

/-- The findings that the turn of the definition at position `p` contributes. -/
def findingsAt (builtinSource : String) (diagnostics : List Diagnostic) (ds : List (Definition m))
    (p : Nat) (d : Definition m) : List Diagnostic :=
  ((ofDefinitions builtinSource (ds.take p) diagnostics).index d.category).conflicts d

/-- No type that is registered before position `p` has the name of `d`. -/
def NameFreeAt (builtinSource : String) (diagnostics : List Diagnostic) (ds : List (Definition m))
    (p : Nat) (d : Definition m) : Prop :=
  ∀ q < p, ∀ e, RegisteredIn builtinSource diagnostics ds .type q e → e.name ≠ d.name

variable {builtinSource : String} {diagnostics : List Diagnostic} {ds : List (Definition m)}
  {identifier : String} {p q : Nat} {d e : Definition m}

theorem findingsAt_eq :
    findingsAt builtinSource diagnostics ds p d =
      Definition.conflictFindings (Definition.accepted (ds.take p)) d :=
  (ofDefinitions_holds builtinSource (ds.take p) diagnostics).conflicts d

/-- The findings of a whole run are those of its turns, after the ones that were there before. -/
theorem diagnostics_ofDefinitions_eq_turns (builtinSource : String) (diagnostics : List Diagnostic)
    (ds : List (Definition m)) :
    (ofDefinitions builtinSource ds diagnostics).diagnostics =
      diagnostics ++ ds.zipIdx.flatMap fun turn =>
        findingsAt builtinSource diagnostics ds turn.2 turn.1 := by
  induction ds using List.reverseRecOn with
  | nil => simp [ofDefinitions]
  | append_singleton ds d ih =>
    -- the turns before the last one see the same definitions as without it
    have hearlier : (ds.zipIdx.flatMap fun turn =>
          findingsAt builtinSource diagnostics (ds ++ [d]) turn.2 turn.1) =
        ds.zipIdx.flatMap fun turn => findingsAt builtinSource diagnostics ds turn.2 turn.1 := by
      refine List.flatMap_congr ?_
      intro turn hturn
      have hlt : turn.2 < ds.length := by
        have hposition := List.mem_zipIdx hturn
        omega
      rw [findingsAt, List.take_append_of_le_length (Nat.le_of_lt hlt), ← findingsAt]
    have hlast : findingsAt builtinSource diagnostics (ds ++ [d]) ds.length d =
        ((ofDefinitions builtinSource ds diagnostics).index d.category).conflicts d := by
      rw [findingsAt, List.take_left]
    have hrun : ofDefinitions builtinSource (ds ++ [d]) diagnostics =
        register builtinSource (ofDefinitions builtinSource ds diagnostics) d := by
      rw [ofDefinitions, List.foldl_append, List.foldl_cons, List.foldl_nil, ← ofDefinitions]
    rw [hrun, diagnostics_register, ih, List.zipIdx_append, List.flatMap_append, hearlier,
      List.zipIdx_singleton, Nat.zero_add, List.flatMap_cons, List.flatMap_nil, List.append_nil, hlast,
      List.append_assoc]

/-! ## What is taken when a type has its turn -/

/-- The identifier is taken if a type with it has been accepted before. -/
theorem identifierTaken_iff (he : Definition.OccursAt ds identifier q e) :
    Definition.identifierTaken (Definition.accepted (ds.take q)) e = true ↔
      ∃ p < q, ∃ d, Definition.OccursAt ds identifier p d ∧ Definition.AcceptedAt ds p d := by
  obtain ⟨htype, rfl⟩ := Definition.isTypeNamed_iff.1 he.2
  have hcategory : e.category = .type := Definition.isType_iff.1 htype
  simp only [Definition.identifierTaken, List.any_eq_true, Definition.mem_accepted_take_iff,
    Bool.and_eq_true, decide_eq_true_eq, beq_iff_eq]
  constructor
  · rintro ⟨d, ⟨p, hp, haccepted⟩, hsame, hidentifier⟩
    have hdtype : d.isType = true := Definition.isType_iff.2 (hsame.trans hcategory)
    exact ⟨p, hp, d, ⟨haccepted.1, Definition.isTypeNamed_iff.2 ⟨hdtype, hidentifier⟩⟩, haccepted⟩
  · rintro ⟨p, hp, d, ⟨-, hname⟩, haccepted⟩
    obtain ⟨hdtype, hidentifier⟩ := Definition.isTypeNamed_iff.1 hname
    have hsame : d.category = e.category := (Definition.isType_iff.1 hdtype).trans hcategory.symm
    exact ⟨d, ⟨p, hp, haccepted⟩, hsame, hidentifier⟩

/-- The name of a type is taken if it is not free. -/
theorem nameTaken_iff (htype : d.isType = true) :
    Definition.nameTaken (Definition.accepted (ds.take p)) d = true ↔
      ¬ NameFreeAt builtinSource diagnostics ds p d := by
  have hcategory : d.category = .type := Definition.isType_iff.1 htype
  simp only [Definition.nameTaken, htype, Bool.true_and, List.any_eq_true,
    Definition.mem_accepted_take_iff, Bool.and_eq_true, decide_eq_true_eq, beq_iff_eq, NameFreeAt,
    registeredIn_iff, hcategory]
  constructor
  · rintro ⟨e, ⟨q, hq, haccepted⟩, hetype, hname⟩ hfree
    exact hfree q hq e ⟨haccepted, hetype⟩ hname
  · intro htaken
    by_contra hnone
    refine htaken ?_
    rintro q hq e ⟨haccepted, hetype⟩ hname
    exact hnone ⟨e, ⟨q, hq, haccepted⟩, hetype, hname⟩

/-- An accepted type has a free name. -/
theorem nameFreeAt_of_acceptedAt (htype : d.isType = true) (h : Definition.AcceptedAt ds p d) :
    NameFreeAt builtinSource diagnostics ds p d := by
  by_contra htaken
  have hfound := (nameTaken_iff htype).2 htaken
  have hnone := h.2
  simp [Definition.conflictFindings, hfound] at hnone

/-! ## The types with one identifier -/

/-- The definition at position `p` is the first type with the identifier whose name is free. -/
structure FirstFreeAt (builtinSource : String) (diagnostics : List Diagnostic)
    (ds : List (Definition m)) (identifier : String) (p : Nat) (d : Definition m) : Prop where
  occurs : Definition.OccursAt ds identifier p d
  free : NameFreeAt builtinSource diagnostics ds p d
  first : ∀ q < p, ∀ e, Definition.OccursAt ds identifier q e →
    ¬ NameFreeAt builtinSource diagnostics ds q e

/-- As long as no type with the identifier has had a free name, the identifier is not taken. -/
theorem identifierTaken_eq_false (he : Definition.OccursAt ds identifier q e)
    (hnone : ∀ p < q, ∀ d, Definition.OccursAt ds identifier p d →
      ¬ NameFreeAt builtinSource diagnostics ds p d) :
    Definition.identifierTaken (Definition.accepted (ds.take q)) e = false := by
  rw [← Bool.not_eq_true, identifierTaken_iff he]
  rintro ⟨p, hp, d, hd, haccepted⟩
  exact hnone p hp d hd
    (nameFreeAt_of_acceptedAt (Definition.isTypeNamed_iff.1 hd.2).1 haccepted)

/-- The first type whose name is free is accepted. -/
theorem FirstFreeAt.acceptedAt (h : FirstFreeAt builtinSource diagnostics ds identifier p d) :
    Definition.AcceptedAt ds p d := by
  refine ⟨h.occurs.1, ?_⟩
  have htype : d.isType = true := (Definition.isTypeNamed_iff.1 h.occurs.2).1
  have hidentifier := identifierTaken_eq_false h.occurs h.first
  have hname : Definition.nameTaken (Definition.accepted (ds.take p)) d = false := by
    rw [← Bool.not_eq_true, nameTaken_iff htype, not_not]
    exact h.free
  simp [Definition.conflictFindings, hidentifier, hname]

/-- After it the identifier is taken. -/
theorem FirstFreeAt.identifierTaken (h : FirstFreeAt builtinSource diagnostics ds identifier p d)
    (hpq : p < q) (he : Definition.OccursAt ds identifier q e) :
    Definition.identifierTaken (Definition.accepted (ds.take q)) e = true :=
  (identifierTaken_iff he).2 ⟨p, hpq, d, h.occurs, h.acceptedAt⟩

/-- What becomes of the types with one identifier. -/
structure UniquenessLaw (builtinSource : String) (diagnostics : List Diagnostic)
    (ds : List (Definition m)) (identifier : String) : Prop where
  /-- The first one whose name is free is registered, and its name stands under the identifier. -/
  winner : ∀ p d, FirstFreeAt builtinSource diagnostics ds identifier p d →
    RegisteredAt builtinSource diagnostics ds p d ∧
    (ofDefinitions builtinSource ds diagnostics).types.names.get? identifier = some d.name
  /-- Each later one is refused, and contributes exactly one finding on the identifier. -/
  later : ∀ p d, FirstFreeAt builtinSource diagnostics ds identifier p d →
    ∀ q e, p < q → Definition.OccursAt ds identifier q e →
      RefusedAt builtinSource diagnostics ds q e ∧
      (findingsAt builtinSource diagnostics ds q e).filter (·.culprit.artifact = "Type identifier") =
        [⟨.uniqueNames, e.location, ⟨"Type identifier", identifier⟩⟩]
  /-- Those that come while the name of none has been free are refused, and contribute exactly one
  finding, on the name. -/
  earlier : ∀ q e, Definition.OccursAt ds identifier q e →
    (∀ p ≤ q, ∀ d, Definition.OccursAt ds identifier p d →
      ¬ NameFreeAt builtinSource diagnostics ds p d) →
    RefusedAt builtinSource diagnostics ds q e ∧
    findingsAt builtinSource diagnostics ds q e =
      [⟨.uniqueNames, e.location, ⟨"Type name", e.name⟩⟩]
  /-- If the name of none is free, nothing stands under the identifier. -/
  nobody : (∀ p d, Definition.OccursAt ds identifier p d →
      ¬ NameFreeAt builtinSource diagnostics ds p d) →
    (ofDefinitions builtinSource ds diagnostics).types.names.get? identifier = none

/-- The names of a registry are those of the accepted types. -/
theorem get?_names_ofDefinitions_iff {name : String} :
    (ofDefinitions builtinSource ds diagnostics).types.names.get? identifier = some name ↔
      ∃ p d, Definition.AcceptedAt ds p d ∧ d.isTypeNamed identifier = true ∧ d.name = name := by
  have hholds := ofDefinitions_holds builtinSource ds diagnostics .type
  have hdistinct := (Definition.compatible_accepted ds).nodup_identifiers .type
  have hnames : (ofDefinitions builtinSource ds diagnostics).types =
      .ofRegistered ((Definition.accepted ds).filter (·.category = .type)) := hholds
  rw [hnames, Index.get?_names_eq_some_iff hdistinct]
  simp only [List.mem_filter, Definition.mem_accepted_iff, decide_eq_true_eq,
    Definition.isTypeNamed_iff, Definition.isType_iff]
  constructor
  · rintro ⟨d, ⟨⟨p, hp⟩, hcategory⟩, hidentifier, hname⟩
    exact ⟨p, d, hp, ⟨hcategory, hidentifier⟩, hname⟩
  · rintro ⟨p, d, hp, ⟨hcategory, hidentifier⟩, hname⟩
    exact ⟨d, ⟨⟨p, hp⟩, hcategory⟩, hidentifier, hname⟩

end Registry

open Registry (findingsAt NameFreeAt FirstFreeAt UniquenessLaw RegisteredAt RefusedAt)

/-- Whatever definitions have had their turn, the findings of the run are those of the turns, and of the
types with one identifier the first one whose name is free is registered. Each later one is reported
exactly once for the identifier, and none before it is. -/
theorem first_free_occurrence_wins (builtinSource : String) (diagnostics : List Diagnostic)
    (ds : List (Definition m)) :
    (Registry.ofDefinitions builtinSource ds diagnostics).diagnostics =
        diagnostics ++ ds.zipIdx.flatMap (fun turn =>
          findingsAt builtinSource diagnostics ds turn.2 turn.1) ∧
      ∀ identifier, UniquenessLaw builtinSource diagnostics ds identifier := by
  refine ⟨Registry.diagnostics_ofDefinitions_eq_turns builtinSource diagnostics ds, ?_⟩
  intro identifier
  constructor
  case winner =>
    intro p d hfirst
    have haccepted := hfirst.acceptedAt
    exact ⟨Registry.registeredAt_iff.2 haccepted,
      Registry.get?_names_ofDefinitions_iff.2 ⟨p, d, haccepted, hfirst.occurs.2, rfl⟩⟩
  case later =>
    intro p d hfirst q e hpq he
    obtain ⟨htype, hidentifier⟩ := Definition.isTypeNamed_iff.1 he.2
    have htaken := hfirst.identifierTaken hpq he
    have hword : e.category.identifierWord = "Type identifier" := by
      rw [Definition.isType_iff.1 htype]
      rfl
    have hfound : findingsAt builtinSource diagnostics ds q e =
        ⟨.uniqueNames, e.location, ⟨"Type identifier", identifier⟩⟩ ::
          if Definition.nameTaken (Definition.accepted (ds.take q)) e then
            [⟨.uniqueNames, e.location, ⟨"Type name", e.name⟩⟩] else [] := by
      rw [Registry.findingsAt_eq, Definition.conflictFindings, htaken, hword, hidentifier]
      rfl
    refine ⟨⟨he.1, ?_⟩, ?_⟩
    · rw [← findingsAt, hfound]
      exact List.cons_ne_nil _ _
    · rw [hfound]
      split <;> rfl
  case earlier =>
    intro q e he hnone
    obtain ⟨htype, -⟩ := Definition.isTypeNamed_iff.1 he.2
    have hidentifier := Registry.identifierTaken_eq_false he fun p hp => hnone p (Nat.le_of_lt hp)
    have hname := (Registry.nameTaken_iff htype).2 (hnone q (Nat.le_refl q) e he)
    have hfound : findingsAt builtinSource diagnostics ds q e =
        [⟨.uniqueNames, e.location, ⟨"Type name", e.name⟩⟩] := by
      rw [Registry.findingsAt_eq, Definition.conflictFindings, hidentifier, hname]
      rfl
    refine ⟨⟨he.1, ?_⟩, hfound⟩
    rw [← findingsAt, hfound]
    exact List.cons_ne_nil _ _
  case nobody =>
    intro hnone
    refine Option.eq_none_iff_forall_ne_some.2 ?_
    intro name hname
    obtain ⟨p, d, haccepted, hnamed, -⟩ := Registry.get?_names_ofDefinitions_iff.1 hname
    exact hnone p d ⟨haccepted.1, hnamed⟩
      (Registry.nameFreeAt_of_acceptedAt (Definition.isTypeNamed_iff.1 hnamed).1 haccepted)

/-- A type, one of its name, and one with the identifier of the latter. -/
def overshadowed : List (Definition Id) :=
  let type (identifier name : String) : Definition Id :=
    { category := .type, identifier, name, origin := .built .plain }
  [type "user" "User", type "account" "User", type "account" "Account"]

/-- The identifier of the last two types is declared twice. The first of them is refused all the same,
since its name is taken. The second one is registered, and nothing is found against it. -/
theorem first_occurrence_can_lose :
    ∃ first second, Definition.FirstAt overshadowed "account" 1 first ∧
      Definition.OccursAt overshadowed "account" 2 second ∧
      RefusedAt "builtins" [] overshadowed 1 first ∧
      RegisteredAt "builtins" [] overshadowed 2 second ∧
      (Registry.ofDefinitions "builtins" overshadowed []).types.names.get? "account" ≠
        some first.name ∧
      findingsAt "builtins" [] overshadowed 2 second = [] := by
  refine ⟨_, _, ⟨⟨rfl, rfl⟩, ?_⟩, ⟨rfl, rfl⟩, ⟨rfl, ?_⟩, ⟨rfl, ?_⟩, ?_, ?_⟩
  · -- only the first type stands before it, and has another identifier
    intro q hq e he
    obtain rfl : q = 0 := by omega
    obtain ⟨hget, hnamed⟩ := he
    obtain rfl := Option.some.inj hget
    revert hnamed
    decide
  all_goals decide

end SchemaRegistry
