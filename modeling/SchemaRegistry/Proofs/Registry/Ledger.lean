import SchemaRegistry.Proofs.Registry.Notes
import SchemaRegistry.Proofs.Registry.Registration

/-!
# Registration without an index

A `Ledger` is what registering comes to when nothing is indexed: for each category the list of the
registered identifiers with their names, and beside it plain lists of what has been noted. Whether an
identifier or a name is taken is found out by going through the list.

A registry with its tables refines the ledger (`ofDefinitions_refines_ledger`). What ties the two is the
list of the definitions registered so far: the registry holds it (`Registry.Holds`), the ledger lists it
(`Ledger.Lists`), and one step on both sides accepts the same definition or refuses it with the same
findings.
-/

namespace SchemaRegistry

variable {m : Type → Type}

/-- What has been registered and noted, without any index. -/
structure Ledger where
  /-- The identifier and the name of each registered type, in the order of registration. -/
  types : List (String × String) := []
  /-- The same for directives. -/
  directives : List (String × String) := []
  /-- Each interface that a type has declared, with the identifier of the type. -/
  interfaces : List (String × String) := []
  /-- The identifiers of the definitions to be exported. -/
  exports : List String := []
  diagnostics : List Diagnostic := []

namespace Ledger

/-- The registered identifiers of a category with their names. -/
def registered (l : Ledger) : Category → List (String × String)
  | .type => l.types
  | .directive => l.directives

/-- What stands against a definition. An identifier is taken if it is in the list of the category, the
name of a type if it is in the list of types. -/
def conflicts (l : Ledger) (d : Definition m) : List Diagnostic :=
  match d.category with
  | .type =>
    (if l.types.any (·.1 == d.identifier) then
        [.ofDefinition .uniqueNames d "Type identifier" d.identifier]
      else []) ++
      if l.types.any (·.2 == d.name) then [.ofDefinition .uniqueNames d "Type name" d.name] else []
  | .directive =>
    if l.directives.any (·.1 == d.identifier) then
      [.ofDefinition .uniqueNames d "Directive identifier" d.identifier]
    else []

/-- Lists a definition as registered. -/
def enter (l : Ledger) (d : Definition m) : Ledger :=
  match d.category with
  | .type => { l with types := l.types ++ [(d.identifier, d.name)] }
  | .directive => { l with directives := l.directives ++ [(d.identifier, d.name)] }

/-- The turn of a definition. It is listed if nothing stands against it; its interfaces, its export and
the findings are noted in any case. -/
def record (builtinSource : String) (l : Ledger) (d : Definition m) : Ledger :=
  let found := l.conflicts d
  let listed := if found.isEmpty then l.enter d else l
  { listed with
    interfaces := l.interfaces ++ d.declaredInterfaces
    exports := if d.isExported builtinSource then l.exports ++ [d.identifier] else l.exports
    diagnostics := l.diagnostics ++ found }

/-- The ledger of definitions that have had their turn one after the other; `diagnostics` are the
findings so far. -/
def ofDefinitions (builtinSource : String) (ds : List (Definition m))
    (diagnostics : List Diagnostic) : Ledger :=
  ds.foldl (record builtinSource) { diagnostics }

/-! ## One step -/

theorem registered_record (builtinSource : String) (l : Ledger) (d : Definition m) (c : Category) :
    (l.record builtinSource d).registered c =
      if l.conflicts d = [] ∧ c = d.category then l.registered c ++ [(d.identifier, d.name)]
      else l.registered c := by
  unfold record enter
  by_cases hnone : l.conflicts d = []
  · cases hcategory : d.category <;> cases c <;> simp [registered, hnone]
  · cases c <;> simp [registered, hnone]

/-- The ledger lists exactly the given definitions as registered. -/
def Lists (l : Ledger) (held : List (Definition m)) : Prop :=
  ∀ c, l.registered c = (held.filter (·.category = c)).map Index.entry

variable {l : Ledger} {held : List (Definition m)}

/-- Going through the lists of a category finds the same conflicts as asking its index. -/
theorem Lists.conflicts (h : l.Lists held) (d : Definition m) :
    l.conflicts d = Definition.conflictFindings held d := by
  rw [← Index.conflicts_ofRegistered]
  unfold Ledger.conflicts Index.conflicts Index.identifierConflict Index.nameConflict
  rw [Index.contains_names_ofRegistered, Index.contains_aliases_ofRegistered]
  have hlisted := h d.category
  cases hcategory : d.category with
  | type =>
    rw [hcategory] at hlisted
    have htypes : l.types = (held.filter (·.category = .type)).map Index.entry := hlisted
    rw [htypes, List.any_map, List.any_map]
    rfl
  | directive =>
    rw [hcategory] at hlisted
    have hdirectives : l.directives = (held.filter (·.category = .directive)).map Index.entry :=
      hlisted
    rw [hdirectives, List.any_map]
    rfl

theorem Lists.record (h : l.Lists held) (builtinSource : String) (d : Definition m) :
    (l.record builtinSource d).Lists (Definition.accept held d) := by
  intro c
  rw [registered_record, h.conflicts d, h c]
  by_cases hnone : Definition.conflictFindings held d = []
  · rw [Definition.accept_of_eq_nil hnone, List.filter_append, List.map_append]
    by_cases hc : c = d.category
    · subst hc
      simp [hnone, Index.entry]
    · have hd : ¬ d.category = c := Ne.symm hc
      simp [hc, hd]
  · -- a refused definition reserves nothing
    rw [Definition.accept_of_ne_nil hnone, if_neg fun hboth => hnone hboth.1]

/-! ## A whole run -/

theorem Lists.foldl_record (h : l.Lists held) (builtinSource : String) (ds : List (Definition m)) :
    (ds.foldl (Ledger.record builtinSource) l).Lists (ds.foldl Definition.accept held) ∧
      (ds.foldl (Ledger.record builtinSource) l).diagnostics =
        l.diagnostics ++ Definition.findingsFrom held ds := by
  induction ds generalizing l held with
  | nil => exact ⟨h, by simp [Definition.findingsFrom]⟩
  | cons d ds ih =>
    obtain ⟨hlists, hdiagnostics⟩ := ih (h.record builtinSource d)
    have hstep : (l.record builtinSource d).diagnostics =
        l.diagnostics ++ Definition.conflictFindings held d := by
      rw [← h.conflicts d]
      rfl
    refine ⟨hlists, ?_⟩
    rw [List.foldl_cons, hdiagnostics, hstep, Definition.findingsFrom, List.append_assoc]

theorem lists_nil (diagnostics : List Diagnostic) :
    ({ diagnostics } : Ledger).Lists ([] : List (Definition m)) := by
  intro c
  cases c <;> rfl

theorem ofDefinitions_lists (builtinSource : String) (ds : List (Definition m))
    (diagnostics : List Diagnostic) :
    (ofDefinitions builtinSource ds diagnostics).Lists (Definition.accepted ds) :=
  ((lists_nil diagnostics).foldl_record builtinSource ds).1

theorem diagnostics_ofDefinitions (builtinSource : String) (ds : List (Definition m))
    (diagnostics : List Diagnostic) :
    (ofDefinitions builtinSource ds diagnostics).diagnostics =
      diagnostics ++ Definition.findingsFrom [] ds :=
  ((lists_nil diagnostics).foldl_record builtinSource ds).2

theorem interfaces_foldl_record (builtinSource : String) (ds : List (Definition m)) (l : Ledger) :
    (ds.foldl (record builtinSource) l).interfaces =
      l.interfaces ++ ds.flatMap Definition.declaredInterfaces := by
  induction ds generalizing l with
  | nil => simp
  | cons d ds ih =>
    have hstep : (l.record builtinSource d).interfaces = l.interfaces ++ d.declaredInterfaces := rfl
    rw [List.foldl_cons, ih, hstep, List.flatMap_cons, List.append_assoc]

theorem exports_foldl_record (builtinSource : String) (ds : List (Definition m)) (l : Ledger) :
    (ds.foldl (record builtinSource) l).exports =
      l.exports ++ Definition.exportedIdentifiers builtinSource ds := by
  induction ds generalizing l with
  | nil => simp [Definition.exportedIdentifiers]
  | cons d ds ih =>
    have hstep : (l.record builtinSource d).exports =
        if d.isExported builtinSource then l.exports ++ [d.identifier] else l.exports := rfl
    rw [List.foldl_cons, ih, hstep, Definition.exportedIdentifiers, Definition.exportedIdentifiers]
    cases hexported : d.isExported builtinSource with
    | true =>
      rw [List.filter_cons_of_pos hexported, if_pos rfl, List.map_cons, List.append_assoc,
        List.singleton_append]
    | false => rw [List.filter_cons_of_neg (by simp [hexported]), if_neg (by simp)]

end Ledger

/-! ## The refinement -/

/-- The tables of the registry say what the ledger says, and nothing else. -/
structure Registry.Refines (r : Registry m) (l : Ledger) : Prop where
  /-- The names by identifier are the listed pairs. -/
  names : ∀ c, (r.index c).names = .ofList (l.registered c)
  /-- The slots stand in the order of the list. -/
  order : ∀ c, r.identifiers c = (l.registered c).map (·.1)
  /-- Under an interface stand the types listed for it; an interface that no type has declared is no
  key. -/
  implementors : ∀ interface,
    r.implementors.get? interface = SortedSet.ofList? (listedFor l.interfaces interface)
  exports : r.exports = .ofList l.exports
  /-- The findings are the same, in the same order. -/
  diagnostics : r.diagnostics = l.diagnostics

/-- Whatever definitions and findings are given, registering them with an index has the same outcome as
listing them without one. A definition that is refused reserves neither its identifier nor its name:
what is registered is the same with and without its turn. -/
theorem ofDefinitions_refines_ledger (builtinSource : String) (ds : List (Definition m))
    (diagnostics : List Diagnostic) :
    (Registry.ofDefinitions builtinSource ds diagnostics).Refines
        (Ledger.ofDefinitions builtinSource ds diagnostics) ∧
      ∀ d, (Ledger.ofDefinitions builtinSource ds diagnostics).conflicts d ≠ [] →
        ∀ c, (Registry.ofDefinitions builtinSource (ds ++ [d]) diagnostics).index c =
          (Registry.ofDefinitions builtinSource ds diagnostics).index c := by
  have hholds := Registry.ofDefinitions_holds builtinSource ds diagnostics
  have hlists := Ledger.ofDefinitions_lists builtinSource ds diagnostics
  refine ⟨?_, ?_⟩
  · constructor
    case names =>
      intro c
      rw [hholds c, Index.names_ofRegistered, hlists c]
    case order =>
      intro c
      rw [Registry.identifiers, hholds.slots c, hlists c, List.map_map, List.map_map]
      rfl
    case implementors =>
      intro interface
      rw [Registry.get?_implementors_ofDefinitions, Ledger.ofDefinitions,
        Ledger.interfaces_foldl_record]
      rfl
    case exports =>
      rw [Registry.exports_ofDefinitions, Ledger.ofDefinitions, Ledger.exports_foldl_record]
      rfl
    case diagnostics =>
      rw [Registry.diagnostics_ofDefinitions, Ledger.diagnostics_ofDefinitions]
  · intro d hconflict c
    have hrefused : ((Registry.ofDefinitions builtinSource ds diagnostics).index
        d.category).conflicts d ≠ [] := by
      rwa [hholds.conflicts d, ← hlists.conflicts d]
    rw [Registry.ofDefinitions, List.foldl_append, List.foldl_cons, List.foldl_nil,
      ← Registry.ofDefinitions, Registry.index_register]
    exact if_neg fun hboth => hrefused (List.isEmpty_iff.1 hboth.1)

end SchemaRegistry
