import SchemaRegistry.Registry.Lookup
import SchemaRegistry.Proofs.Definition.Rearrangement
import SchemaRegistry.Proofs.Registry.Notes

/-!
# Order independence

In which order definitions are declared decides which of them are registered only if some of them
collide. If nothing collides, the order makes no difference to anything a registry is asked for: an
assembly of rearranged definitions has the same tables and answers every lookup alike
(`assemble_interchangeable`). It shows in two places only, the order of the slots and the order of the
findings. Imports may be missing or run in circles.

The definitions reach the registration rearranged, but otherwise the same
(`Definition.finished_perm`), and because nothing collides all of them are registered. What remains is
that each table is a function of what was registered, not of the order
(`Registry.Holds.names_perm`, `Registry.Holds.lookup_type_perm`, `Registry.Holds.lookup_directive_perm`).
-/

namespace SchemaRegistry

variable {m : Type → Type}

/-! ## Registries of rearranged definitions -/

/-- Nobody who asks for types, or for directives of `ds` by their identifiers, can tell the registries
apart. -/
structure Registry.Interchangeable (r r' : Registry m) (ds : List (Definition m)) : Prop where
  /-- The names by identifier are the same in each category. -/
  names : ∀ category, (r.index category).names = (r'.index category).names
  implementors : r.implementors = r'.implementors
  exports : r.exports = r'.exports
  /-- Types have the same answers under every key, in whatever way slots are realized. -/
  types : ∀ (key : String) (n : Type → Type) [Monad n] (realize : Realization m n),
    r.lookup realize .type key = r'.lookup realize .type key
  /-- Directives have the same answers under their identifiers. Under a name that several of them have,
  the first one answers, so names are left out. -/
  directives : ∀ d ∈ ds, d.category = .directive →
    ∀ (n : Type → Type) [Monad n] (realize : Realization m n),
      r.lookup realize .directive d.identifier = r'.lookup realize .directive d.identifier
  /-- The findings are the same up to their order, -/
  diagnostics : r.diagnostics.Perm r'.diagnostics
  /-- so that registries without findings have the same report, with the same fingerprint. -/
  report : r.diagnostics = [] → Report.ofRegistry r = Report.ofRegistry r'

namespace Registry

/-- A report says what the tables say. -/
theorem report_congr {r r' : Registry m} (hnames : ∀ c, (r.index c).names = (r'.index c).names)
    (himplementors : r.implementors = r'.implementors) (hexports : r.exports = r'.exports)
    (hdiagnostics : r.diagnostics = r'.diagnostics) : Report.ofRegistry r = Report.ofRegistry r' := by
  have htypes : r.types.names = r'.types.names := hnames .type
  have hdirectives : r.directives.names = r'.directives.names := hnames .directive
  have htables : Tables.ofRegistry r = Tables.ofRegistry r' := by
    unfold Tables.ofRegistry
    rw [htypes, hdirectives, himplementors, hexports, hdiagnostics]
  unfold Report.ofRegistry
  rw [htables]

section Holds

variable {r r' : Registry m} {held held' : List (Definition m)}

theorem Holds.names_perm (h : r.Holds held) (h' : r'.Holds held')
    (hcompatible : Definition.Compatible held) (hperm : held.Perm held') (category : Category) :
    (r.index category).names = (r'.index category).names := by
  rw [h category, h' category]
  exact Index.names_ofRegistered_perm (hcompatible.nodup_identifiers category) (hperm.filter _)

theorem lookup_congr {category : Category} {key : String}
    (h : (r.index category).resolve? key = (r'.index category).resolve? key) (n : Type → Type)
    [Monad n] (realize : Realization m n) :
    r.lookup realize category key = r'.lookup realize category key := by
  unfold lookup
  rw [h]

theorem Holds.lookup_type_perm (h : r.Holds held) (h' : r'.Holds held')
    (hcompatible : Definition.Compatible held) (hperm : held.Perm held') (key : String)
    (n : Type → Type) [Monad n] (realize : Realization m n) :
    r.lookup realize .type key = r'.lookup realize .type key := by
  refine lookup_congr ?_ n realize
  rw [h .type, h' .type]
  exact Index.resolve?_ofRegistered_perm (hcompatible.nodup_identifiers .type)
    hcompatible.nodup_names (hperm.filter _) key

theorem Holds.lookup_directive_perm (h : r.Holds held) (h' : r'.Holds held')
    (hcompatible : Definition.Compatible held) (hperm : held.Perm held') {d : Definition m}
    (hd : d ∈ held) (hcategory : d.category = .directive) (n : Type → Type) [Monad n]
    (realize : Realization m n) :
    r.lookup realize .directive d.identifier = r'.lookup realize .directive d.identifier := by
  refine lookup_congr ?_ n realize
  rw [h .directive, h' .directive]
  exact Index.resolve?_identifier_perm (hcompatible.nodup_identifiers .directive) (hperm.filter _)
    (List.mem_filter.2 ⟨hd, by simpa using hcategory⟩)

end Holds

/-! ## Assemblies of rearranged definitions -/

section Assembly

variable {ds ds' : List (Definition m)}

/-- The findings on compatible definitions are those of the rules. -/
theorem diagnostics_of_compatible (h : Definition.Compatible ds) (schema : SchemaNames)
    (descriptions : Descriptions) :
    (assembleWith schema Rule.standard descriptions ds).diagnostics =
      Definition.missingFindings ds ++ Definition.circularFindings ds := by
  -- what is left by the rule on cycles is compatible as well, so nothing of it is refused
  have hnone : Definition.findingsFrom [] (Definition.survivors ds) = [] :=
    (Definition.findingsFrom_eq_nil_iff List.Pairwise.nil).2 h.survivors
  rw [diagnostics_assembleWith, hnone, List.append_nil]

theorem diagnostics_perm (h : Definition.Compatible ds) (hperm : ds.Perm ds') (schema : SchemaNames)
    (descriptions : Descriptions) :
    (assembleWith schema Rule.standard descriptions ds).diagnostics.Perm
      (assembleWith schema Rule.standard descriptions ds').diagnostics := by
  rw [diagnostics_of_compatible h, diagnostics_of_compatible (h.perm hperm)]
  exact (Definition.missingFindings_perm hperm).append (Definition.circularFindings_perm hperm)

/-- A directive keeps its identifier until it is registered, and is never left out. -/
theorem exists_finished_directive {d : Definition m} (hd : d ∈ ds) (hcategory : d.category = .directive)
    (schema : SchemaNames) (descriptions : Descriptions) :
    ∃ e ∈ Definition.finished schema descriptions ds,
      e.category = .directive ∧ e.identifier = d.identifier := by
  -- only types are circular
  have hsurvives : d ∈ Definition.survivors ds := by
    refine Definition.mem_survivors.2 ⟨hd, ?_⟩
    rintro ⟨htype, -⟩
    have hother : d.category = .type := Definition.isType_iff.1 htype
    rw [hcategory] at hother
    cases hother
  have hheading : d.heading ∈ (Definition.finished schema descriptions ds).map Definition.heading := by
    rw [Definition.finished_headings]
    exact List.mem_map_of_mem hsurvives
  obtain ⟨e, he, heq⟩ := List.mem_map.1 hheading
  refine ⟨e, he, ?_, ?_⟩
  · rw [Definition.category_of_heading_eq heq, hcategory]
  · rw [← e.identifier_heading, heq, d.identifier_heading]

theorem implementors_perm (h : Definition.Compatible ds) (hperm : ds.Perm ds') (schema : SchemaNames)
    (descriptions : Descriptions) :
    (assembleWith schema Rule.standard descriptions ds).implementors =
      (assembleWith schema Rule.standard descriptions ds').implementors := by
  rw [assembleWith_standard, assembleWith_standard]
  exact implementors_ofDefinitions_perm _ (Definition.finished_perm h hperm schema descriptions) _ _

theorem exports_perm (h : Definition.Compatible ds) (hperm : ds.Perm ds') (schema : SchemaNames)
    (descriptions : Descriptions) :
    (assembleWith schema Rule.standard descriptions ds).exports =
      (assembleWith schema Rule.standard descriptions ds').exports := by
  rw [assembleWith_standard, assembleWith_standard]
  exact exports_ofDefinitions_perm _ (Definition.finished_perm h hperm schema descriptions) _ _

end Assembly

end Registry

theorem Config.ruleList_eq_standard {c : Config} (hexist : c.rules.importsExist = true)
    (hacyclic : c.rules.importsAcyclic = true) : (c.ruleList : List (Rule m)) = Rule.standard := by
  unfold Config.ruleList
  rw [hexist, hacyclic]
  rfl

/-- If both built-in rules are run and no identifier of a category and no name of a type is declared
twice, the registries that are assembled from definitions and from the same definitions in another order
are interchangeable. -/
theorem assemble_interchangeable (c : Config) (hexist : c.rules.importsExist = true)
    (hacyclic : c.rules.importsAcyclic = true) (descriptions : Descriptions)
    {ds ds' : List (Definition m)} (hperm : ds.Perm ds')
    (htypes : ((ds.filter (·.category = .type)).map (·.identifier)).Nodup)
    (hnames : ((ds.filter (·.category = .type)).map (·.name)).Nodup)
    (hdirectives : ((ds.filter (·.category = .directive)).map (·.identifier)).Nodup) :
    (Registry.assemble c descriptions ds).Interchangeable (Registry.assemble c descriptions ds') ds := by
  have hcompatible : Definition.Compatible ds :=
    Definition.compatible_iff.2 ⟨htypes, hnames, hdirectives⟩
  unfold Registry.assemble
  rw [Config.ruleList_eq_standard hexist hacyclic]
  -- both registries hold what the passes hand on, and one hands on a rearrangement of the other
  have hholds := Registry.assembleWith_holds_of_compatible hcompatible c.schema descriptions
  have hholds' := Registry.assembleWith_holds_of_compatible (hcompatible.perm hperm) c.schema
    descriptions
  have hcompatible' := hcompatible.finished c.schema descriptions
  have hfinished := Definition.finished_perm hcompatible hperm c.schema descriptions
  have htables := hholds.names_perm hholds' hcompatible' hfinished
  have himplementors := Registry.implementors_perm hcompatible hperm c.schema descriptions
  have hexports := Registry.exports_perm hcompatible hperm c.schema descriptions
  have hdiagnostics := Registry.diagnostics_perm hcompatible hperm c.schema descriptions
  constructor
  case names => exact htables
  case implementors => exact himplementors
  case exports => exact hexports
  case types => exact hholds.lookup_type_perm hholds' hcompatible' hfinished
  case directives =>
    intro d hd hcategory n _ realize
    obtain ⟨e, he, hdirective, hidentifier⟩ :=
      Registry.exists_finished_directive hd hcategory c.schema descriptions
    rw [← hidentifier]
    exact hholds.lookup_directive_perm hholds' hcompatible' hfinished he hdirective n realize
  case diagnostics => exact hdiagnostics
  case report =>
    -- where one assembly finds nothing the other does not either
    intro hnone
    rw [hnone] at hdiagnostics
    refine Registry.report_congr htables himplementors hexports ?_
    rw [hnone, hdiagnostics.nil_eq]

/-- Two types that import from each other and one that imports from them, a mutation that imports its
second field and is linked to a subscription, and two directives of one name that import from nowhere. -/
def entangled : List (Definition Id) :=
  let field (identifier : String) : Field := { identifier, name := identifier }
  let define (category : Category) (identifier name : String) (fields : List Field)
      (targets : List String) : Definition Id :=
    { category, identifier, name, fields, fieldImports := targets.map fun target => { target },
      origin := .built .plain }
  [define .type "left" "Left" [field "l"] ["right"],
    define .type "mutation" "Mutation" [field "save"] ["base"],
    define .directive "mark" "Mark" [] ["ghost"],
    define .type "outside" "Outside" [field "o"] ["left", "base"],
    define .type "subscription" "Subscription"
      [{ field "saved" with triggers := [⟨.ofList ["save", "id"], .null⟩] }] [],
    define .type "base" "Base" [field "id"] [],
    define .directive "tag" "Mark" [] ["ghost", "left"],
    define .type "right" "Right" [field "r"] ["left"]]

/-- All this may just as well be declared backwards. -/
theorem entangled_reversed :
    entangled.Perm entangled.reverse ∧
      ((entangled.filter (·.category = .type)).map (·.identifier)).Nodup ∧
      ((entangled.filter (·.category = .type)).map (·.name)).Nodup ∧
      ((entangled.filter (·.category = .directive)).map (·.identifier)).Nodup ∧
      (Registry.assemble {} (.insert ∅ "base" "first") entangled).Interchangeable
        (Registry.assemble {} (.insert ∅ "base" "first") entangled.reverse) entangled := by
  have hperm : entangled.Perm entangled.reverse := (List.reverse_perm entangled).symm
  have htypes : ((entangled.filter (·.category = .type)).map (·.identifier)).Nodup := by decide
  have hnames : ((entangled.filter (·.category = .type)).map (·.name)).Nodup := by decide
  have hdirectives : ((entangled.filter (·.category = .directive)).map (·.identifier)).Nodup := by
    decide
  exact ⟨hperm, htypes, hnames, hdirectives,
    assemble_interchangeable {} rfl rfl (.insert ∅ "base" "first") hperm htypes hnames hdirectives⟩

end SchemaRegistry
