import SchemaRegistry.Registry.Lookup
import SchemaRegistry.Proofs.Registry.Notes
import SchemaRegistry.Proofs.Registry.Registration

/-!
# Without a refused definition

A definition that is refused takes no identifier, no name and no slot. To see that this is of no
consequence to the definitions after it, two runs are followed side by side, one with the refused
definition and one without it (`Registry.SameButFor`). The tables in which conflicts are looked for are
equal on both sides; the notes and the findings differ by what the refused definition adds to them.

The relation holds right after the definition was refused (`sameButFor_of_refused`). The turn of another
definition keeps it (`SameButFor.register`), since what stands against the other definition is looked up
in equal tables. So it holds after any further definitions (`refused_definition_is_inert`).
-/

namespace SchemaRegistry

variable {m : Type → Type}

/-- The findings report the definition: one of them or, if it is a type, up to two, at its location. -/
def Definition.ReportedBy (d : Definition m) (found : List Diagnostic) : Prop :=
  (found.length = 1 ∨ d.isType = true ∧ found.length = 2) ∧
    ∀ f ∈ found, f.rule = .uniqueNames ∧ f.location = d.location

namespace Registry

/-- What stands against registering a definition. -/
def conflictsWith (r : Registry m) (d : Definition m) : List Diagnostic :=
  (r.index d.category).conflicts d

/-- The registry `r` is `r'` but for the definition `d`, which the registry `earlier` refused. -/
structure SameButFor (builtinSource : String) (earlier : Registry m) (d : Definition m)
    (r r' : Registry m) : Prop where
  /-- Each category has the same names under the same identifiers, and the same slots with the same
  producers in the same order. -/
  index : ∀ category, r.index category = r'.index category
  /-- What stood against `d` is reported right after what had been found before. -/
  diagnostics : ∃ later, r'.diagnostics = earlier.diagnostics ++ later ∧
    r.diagnostics = earlier.diagnostics ++ earlier.conflictsWith d ++ later
  /-- The identifier of `d` also stands under the interfaces that `d` implements. -/
  implementors : ∀ interface, r.implementors.get? interface =
    if d.Implements interface then
      some (((r'.implementors.get? interface).getD ∅).insert d.identifier)
    else r'.implementors.get? interface
  /-- The identifier of `d` is also exported, if `d` is to be exported. -/
  exports : ∀ x, x ∈ r.exports ↔
    x ∈ r'.exports ∨ d.isExported builtinSource = true ∧ d.identifier = x

/-- Nobody who asks can tell the registries apart, by whichever key and however slots are realized. -/
def AnswersLike (r r' : Registry m) : Prop :=
  ∀ (n : Type → Type) [Monad n] (realize : Realization m n),
    (∀ category key, r.lookup realize category key = r'.lookup realize category key ∧
      r.find realize category key = r'.find realize category key) ∧
    r.materialize realize = r'.materialize realize

variable {builtinSource : String} {earlier r r' : Registry m} {d : Definition m}

/-! ## The refusal -/

theorem reportedBy_conflictsWith {ds : List (Definition m)} {diagnostics : List Diagnostic}
    (h : (ofDefinitions builtinSource ds diagnostics).conflictsWith d ≠ []) :
    d.ReportedBy ((ofDefinitions builtinSource ds diagnostics).conflictsWith d) := by
  have hfound : (ofDefinitions builtinSource ds diagnostics).conflictsWith d =
      Definition.conflictFindings (Definition.accepted ds) d :=
    (ofDefinitions_holds builtinSource ds diagnostics).conflicts d
  rw [hfound] at h ⊢
  exact ⟨Definition.length_conflictFindings h, fun f hf => Definition.of_mem_conflictFindings hf⟩

theorem sameButFor_of_refused (builtinSource : String) (h : earlier.conflictsWith d ≠ []) :
    SameButFor builtinSource earlier d (register builtinSource earlier d) earlier := by
  constructor
  case index =>
    intro category
    -- tables are only written for a definition that nothing stands against
    rw [index_register, if_neg]
    rintro ⟨hempty, -⟩
    exact h (List.isEmpty_iff.1 hempty)
  case diagnostics =>
    refine ⟨[], ?_, ?_⟩
    · rw [List.append_nil]
    · rw [diagnostics_register, List.append_nil, conflictsWith]
  case implementors =>
    intro interface
    rw [implementors_register, get?_noteInterfaces]
  case exports =>
    intro x
    rw [exports_register, mem_noteExport]

/-! ## The turns after it -/

/-- The turn of another definition `e` has the same outcome on both sides. -/
theorem SameButFor.register (h : SameButFor builtinSource earlier d r r') (e : Definition m) :
    SameButFor builtinSource earlier d (register builtinSource r e)
      (register builtinSource r' e) := by
  have hconflicts : (r.index e.category).conflicts e = (r'.index e.category).conflicts e := by
    rw [h.index]
  constructor
  case index =>
    intro category
    rw [index_register, index_register, hconflicts, h.index, h.index]
  case diagnostics =>
    obtain ⟨later, hwithout, hwith⟩ := h.diagnostics
    refine ⟨later ++ (r'.index e.category).conflicts e, ?_, ?_⟩
    · rw [diagnostics_register, hwithout, List.append_assoc]
    · rw [diagnostics_register, hconflicts, hwith, List.append_assoc _ later]
  case implementors =>
    intro interface
    rw [implementors_register, implementors_register, get?_noteInterfaces, get?_noteInterfaces,
      h.implementors]
    -- if both implement the interface, it does not matter which identifier is added first
    by_cases hd : d.Implements interface <;> by_cases he : e.Implements interface <;>
      simp [hd, he, SortedSet.insert_comm _ d.identifier e.identifier]
  case exports =>
    intro x
    rw [exports_register, exports_register, mem_noteExport, mem_noteExport, h.exports]
    exact or_right_comm

theorem SameButFor.foldl_register (h : SameButFor builtinSource earlier d r r')
    (ds : List (Definition m)) :
    SameButFor builtinSource earlier d (ds.foldl (Registry.register builtinSource) r)
      (ds.foldl (Registry.register builtinSource) r') := by
  induction ds generalizing r r' with
  | nil => exact h
  | cons e ds ih => exact ih (h.register e)

/-- What is asked for is looked up in the tables that are the same. -/
theorem SameButFor.answersLike (h : SameButFor builtinSource earlier d r r') : AnswersLike r r' := by
  intro n _ realize
  refine ⟨?_, ?_⟩
  · intro category key
    simp only [lookup, find, h.index, and_self]
  · have htypes : r.types = r'.types := h.index .type
    have hdirectives : r.directives = r'.directives := h.index .directive
    simp only [materialize, htypes, hdirectives]

end Registry

open Registry (ofDefinitions SameButFor)

/-- If something stands against a definition when it has its turn, then with and without it the registry
is the same in all but what is said of this definition: it is reported, its own interfaces are noted, and
so is its own export. -/
theorem refused_definition_is_inert (builtinSource : String) (diagnostics : List Diagnostic)
    (before after : List (Definition m)) (d : Definition m)
    (hrefused : (ofDefinitions builtinSource before diagnostics).conflictsWith d ≠ []) :
    d.ReportedBy ((ofDefinitions builtinSource before diagnostics).conflictsWith d) ∧
      SameButFor builtinSource (ofDefinitions builtinSource before diagnostics) d
        (ofDefinitions builtinSource (before ++ d :: after) diagnostics)
        (ofDefinitions builtinSource (before ++ after) diagnostics) ∧
      (ofDefinitions builtinSource (before ++ d :: after) diagnostics).AnswersLike
        (ofDefinitions builtinSource (before ++ after) diagnostics) := by
  have hsame : SameButFor builtinSource (ofDefinitions builtinSource before diagnostics) d
      (ofDefinitions builtinSource (before ++ d :: after) diagnostics)
      (ofDefinitions builtinSource (before ++ after) diagnostics) := by
    -- both runs continue with `after`, one from the refusal and one from before it
    have hrun := (Registry.sameButFor_of_refused builtinSource hrefused).foldl_register after
    rwa [← List.foldl_cons, ofDefinitions, ← List.foldl_append, ← List.foldl_append, ← ofDefinitions,
      ← ofDefinitions] at hrun
  exact ⟨Registry.reportedBy_conflictsWith hrefused, hsame, hsame.answersLike⟩

/-- A type that implements an interface. -/
def nodeType (identifier name : String) : Definition Id where
  category := .type
  identifier := identifier
  name := name
  interfaces := ["node"]
  origin := .built .plain

/-- A second type of the name `User` is refused. Its identifier stays free, so the next type with this
identifier is registered. -/
theorem second_user_is_inert :
    (ofDefinitions "builtins" [nodeType "user" "User"] []).conflictsWith (nodeType "account" "User") ≠
        [] ∧
      SameButFor "builtins" (ofDefinitions "builtins" [nodeType "user" "User"] [])
        (nodeType "account" "User")
        (ofDefinitions "builtins"
          [nodeType "user" "User", nodeType "account" "User", nodeType "account" "Account"] [])
        (ofDefinitions "builtins" [nodeType "user" "User", nodeType "account" "Account"] []) ∧
      (ofDefinitions "builtins"
        [nodeType "user" "User", nodeType "account" "User", nodeType "account" "Account"]
        []).types.names.get? "account" = some "Account" := by
  have hrefused : (ofDefinitions "builtins" [nodeType "user" "User"] []).conflictsWith
      (nodeType "account" "User") ≠ [] := by
    decide
  have hinert := refused_definition_is_inert "builtins" [] [nodeType "user" "User"]
    [nodeType "account" "Account"] (nodeType "account" "User") hrefused
  exact ⟨hrefused, hinert.2.1, by decide⟩

end SchemaRegistry
