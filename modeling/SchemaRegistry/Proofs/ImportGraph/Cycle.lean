import Mathlib.Logic.Relation
import SchemaRegistry.ImportGraph

/-!
# Cycles of the import graph

`ImportGraph.unreached` takes nodes out of a list until a work list is empty. What it takes out is what
can be reached: everything that is taken out is reachable from the work list (`reached_of_not_mem`), and
with a node its targets are taken out (`not_mem_unreached_of_edge`). So a node is listed by
`ImportGraph.cyclic` if and only if it reaches itself along one or more edges (`mem_cyclic_iff`).

On definitions the edges are the imports between types (`Definition.Imports`), and a cycle of imports is
a cycle of the graph (`mem_cyclic_ofDefinitions`).
-/

namespace SchemaRegistry

open Relation

variable {m : Type → Type}

namespace ImportGraph

/-- There is an edge from `v` to `w`: `v` imports from `w`. -/
def Edge (g : ImportGraph) (v w : String) : Prop := (v, w) ∈ g.edges

theorem mem_targets {g : ImportGraph} {v w : String} : w ∈ g.targets v ↔ g.Edge v w := by
  simp [targets, Edge]

/-- Every node is listed once, and both ends of every edge are nodes. -/
structure Proper (g : ImportGraph) : Prop where
  nodup : g.nodes.Nodup
  source_mem : ∀ v w, g.Edge v w → v ∈ g.nodes
  target_mem : ∀ v w, g.Edge v w → w ∈ g.nodes

/-! ## What is taken out -/

section Unreached

variable {g : ImportGraph} {unseen work : List String}

theorem mem_of_mem_unreached {x : String} (h : x ∈ g.unreached unseen work) : x ∈ unseen := by
  fun_induction unreached g unseen work with
  | case1 unseen => exact h
  | case2 unseen v work hv ih => exact List.mem_of_mem_erase (ih h)
  | case3 unseen v work hv ih => exact ih h

/-- Nothing of the work list is left. -/
theorem not_mem_unreached_of_mem_work (hnodup : unseen.Nodup) {w : String} (hw : w ∈ work) :
    w ∉ g.unreached unseen work := by
  fun_induction unreached g unseen work with
  | case1 unseen => simp at hw
  | case2 unseen v work hv ih =>
    rcases List.mem_cons.1 hw with rfl | hw
    · intro hmem
      exact hnodup.not_mem_erase (mem_of_mem_unreached hmem)
    · exact ih (hnodup.erase v) (List.mem_append_right _ hw)
  | case3 unseen v work hv ih =>
    rcases List.mem_cons.1 hw with rfl | hw
    · intro hmem
      exact hv (mem_of_mem_unreached hmem)
    · exact ih hnodup hw

/-- With a node its targets are taken out. -/
theorem not_mem_unreached_of_edge (hnodup : unseen.Nodup) {v w : String} (hv : v ∈ unseen)
    (hout : v ∉ g.unreached unseen work) (hedge : g.Edge v w) : w ∉ g.unreached unseen work := by
  fun_induction unreached g unseen work with
  | case1 unseen => exact absurd hv hout
  | case2 unseen u work hu ih =>
    by_cases h : v = u
    · -- the targets of `v` have just been put on the work list
      subst h
      have hwork : w ∈ g.targets v ++ work := List.mem_append_left _ (mem_targets.2 hedge)
      exact not_mem_unreached_of_mem_work (hnodup.erase v) hwork
    · exact ih (hnodup.erase u) ((List.mem_erase_of_ne h).2 hv) hout
  | case3 unseen u work hu ih => exact ih hnodup hv hout

/-- Only what can be reached is taken out. -/
theorem reached_of_not_mem {x : String} (hx : x ∈ unseen) (hout : x ∉ g.unreached unseen work) :
    ∃ w ∈ work, ReflTransGen g.Edge w x := by
  fun_induction unreached g unseen work with
  | case1 unseen => exact absurd hx hout
  | case2 unseen v work hv ih =>
    by_cases h : x = v
    · subst h
      exact ⟨x, List.mem_cons_self, .refl⟩
    · obtain ⟨w, hw, hreach⟩ := ih ((List.mem_erase_of_ne h).2 hx) hout
      rcases List.mem_append.1 hw with hw | hw
      · exact ⟨v, List.mem_cons_self, .head (mem_targets.1 hw) hreach⟩
      · exact ⟨w, List.mem_cons_of_mem _ hw, hreach⟩
  | case3 unseen v work hv ih =>
    obtain ⟨w, hw, hreach⟩ := ih hx hout
    exact ⟨w, List.mem_cons_of_mem _ hw, hreach⟩

end Unreached

/-! ## Cycles -/

section Cyclic

variable {g : ImportGraph}

/-- What can be reached from a node that is taken out is taken out. -/
theorem Proper.not_mem_unreached_of_reach (hg : g.Proper) {work : List String} {v w : String}
    (hv : v ∈ g.nodes) (hout : v ∉ g.unreached g.nodes work) (h : ReflTransGen g.Edge v w) :
    w ∉ g.unreached g.nodes work := by
  have hboth : w ∈ g.nodes ∧ w ∉ g.unreached g.nodes work := by
    induction h with
    | refl => exact ⟨hv, hout⟩
    | tail _ hedge ih =>
      exact ⟨hg.target_mem _ _ hedge, not_mem_unreached_of_edge hg.nodup ih.1 ih.2 hedge⟩
  exact hboth.2

theorem Proper.isCyclic_iff (hg : g.Proper) {v : String} (hv : v ∈ g.nodes) :
    g.isCyclic v = true ↔ TransGen g.Edge v v := by
  have hleft : g.isCyclic v = true ↔ v ∉ g.unreached g.nodes (g.targets v) := by
    simp [isCyclic]
  rw [hleft]
  constructor
  · intro hout
    obtain ⟨w, hw, hreach⟩ := reached_of_not_mem hv hout
    exact TransGen.head' (mem_targets.1 hw) hreach
  · intro hcycle
    obtain ⟨w, hedge, hreach⟩ := TransGen.head'_iff.1 hcycle
    have hout : w ∉ g.unreached g.nodes (g.targets v) :=
      not_mem_unreached_of_mem_work hg.nodup (mem_targets.2 hedge)
    exact hg.not_mem_unreached_of_reach (hg.target_mem _ _ hedge) hout hreach

/-- The nodes that lie on a cycle are those that reach themselves along one or more edges. -/
theorem Proper.mem_cyclic_iff (hg : g.Proper) {v : String} :
    v ∈ g.cyclic ↔ TransGen g.Edge v v := by
  rw [cyclic, List.mem_filter]
  constructor
  · rintro ⟨hv, hcyclic⟩
    exact (hg.isCyclic_iff hv).1 hcyclic
  · intro hcycle
    obtain ⟨w, hedge, _⟩ := TransGen.head'_iff.1 hcycle
    have hv : v ∈ g.nodes := hg.source_mem _ _ hedge
    exact ⟨hv, (hg.isCyclic_iff hv).2 hcycle⟩

end Cyclic

end ImportGraph

/-! ## Imports between types -/

namespace Definition

/-- To look for a type with an identifier is to look for the identifier among the types. -/
theorem find?_isTypeNamed (ds : List (Definition m)) (identifier : String) :
    ds.find? (isTypeNamed identifier) =
      (ds.filter (·.category = .type)).find? (·.identifier == identifier) := by
  rw [List.find?_filter]
  congr 1
  funext d
  rw [Bool.eq_iff_iff, isTypeNamed_iff, isType_iff]
  simp

theorem mem_typeIdentifiers {ds : List (Definition m)} {identifier : String} :
    identifier ∈ typeIdentifiers ds ↔ ∃ d ∈ ds, d.isTypeNamed identifier = true := by
  simp [typeIdentifiers, isTypeNamed_iff, and_assoc]

/-- Some type with the identifier `i` imports fields from `j`, and `j` is the identifier of a type. -/
def Imports (ds : List (Definition m)) (i j : String) : Prop :=
  (∃ d ∈ ds, d.isTypeNamed i = true ∧ ∃ f ∈ d.fieldImports, f.target = j) ∧
    ∃ t ∈ ds, t.isTypeNamed j = true

/-- The identifier lies on a cycle of imports between types, of any length from one on. -/
def OnCycle (ds : List (Definition m)) (i : String) : Prop := TransGen (Imports ds) i i

/-- What imports from each other among some of the definitions does so among all of them. -/
theorem imports_of_subset {ds ds' : List (Definition m)} (h : ds' ⊆ ds) {i j : String}
    (hedge : Imports ds' i j) : Imports ds i j := by
  obtain ⟨⟨d, hd, himport⟩, t, ht, hnamed⟩ := hedge
  exact ⟨⟨d, h hd, himport⟩, t, h ht, hnamed⟩

theorem onCycle_of_subset {ds ds' : List (Definition m)} (h : ds' ⊆ ds) {i : String}
    (hcycle : OnCycle ds' i) : OnCycle ds i :=
  TransGen.mono (fun _ _ => imports_of_subset h) i i hcycle

end Definition

/-- An identifier lies on a cycle if and only if a type with it imports from itself, or there is another
identifier that it reaches and that reaches it: its strongly connected component has several members. -/
theorem Definition.onCycle_iff_component {ds : List (Definition m)} {i : String} :
    OnCycle ds i ↔ Imports ds i i ∨
      ∃ j, j ≠ i ∧ TransGen (Imports ds) i j ∧ TransGen (Imports ds) j i := by
  constructor
  · intro h
    obtain ⟨j, hedge, hback⟩ := TransGen.head'_iff.1 h
    by_cases hj : j = i
    · subst hj
      exact .inl hedge
    · rcases ReflTransGen.cases_head hback with heq | ⟨k, hnext, hrest⟩
      · exact absurd heq hj
      · exact .inr ⟨j, hj, .single hedge, TransGen.head' hnext hrest⟩
  · rintro (hself | ⟨j, -, hthere, hback⟩)
    · exact .single hself
    · exact hthere.trans hback

namespace ImportGraph

theorem mem_nodes_ofDefinitions {ds : List (Definition m)} {v : String} :
    v ∈ (ofDefinitions ds).nodes ↔ ∃ d ∈ ds, d.isTypeNamed v = true := by
  simp only [ofDefinitions, List.mem_eraseDups]
  exact Definition.mem_typeIdentifiers

/-- The edges of the graph are the imports between types. -/
theorem edge_ofDefinitions {ds : List (Definition m)} {v w : String} :
    (ofDefinitions ds).Edge v w ↔ Definition.Imports ds v w := by
  have htarget : w ∈ (Definition.typeIdentifiers ds).eraseDups ↔
      ∃ t ∈ ds, t.isTypeNamed w = true := mem_nodes_ofDefinitions
  unfold Edge Definition.Imports
  rw [← htarget]
  simp only [ofDefinitions, List.mem_flatMap, List.mem_filter, List.mem_map, List.contains_iff_mem,
    Prod.mk.injEq, Definition.isTypeNamed_iff]
  constructor
  · rintro ⟨d, ⟨hd, htype⟩, f, ⟨hf, hnode⟩, rfl, rfl⟩
    exact ⟨⟨d, hd, ⟨htype, rfl⟩, f, hf, rfl⟩, hnode⟩
  · rintro ⟨⟨d, hd, ⟨htype, rfl⟩, f, hf, rfl⟩, hnode⟩
    exact ⟨d, ⟨hd, htype⟩, f, ⟨hf, hnode⟩, rfl, rfl⟩

theorem nodup_eraseDups (xs : List String) : xs.eraseDups.Nodup := by
  match xs with
  | [] => exact List.nodup_nil
  | x :: rest =>
    rw [List.eraseDups_cons, List.nodup_cons]
    refine ⟨?_, nodup_eraseDups (rest.filter fun y => !y == x)⟩
    simp [List.mem_eraseDups]
termination_by xs.length
decreasing_by
  have hle := List.length_filter_le (fun y => !y == x) rest
  simp only [List.length_cons]
  omega

theorem proper_ofDefinitions (ds : List (Definition m)) : (ofDefinitions ds).Proper where
  nodup := nodup_eraseDups _
  source_mem v w h := by
    obtain ⟨⟨d, hd, hname, _⟩, _⟩ := edge_ofDefinitions.1 h
    exact mem_nodes_ofDefinitions.2 ⟨d, hd, hname⟩
  target_mem v w h := mem_nodes_ofDefinitions.2 (edge_ofDefinitions.1 h).2

/-- The nodes listed as cyclic are the identifiers on a cycle of imports. -/
theorem mem_cyclic_ofDefinitions {ds : List (Definition m)} {v : String} :
    v ∈ (ofDefinitions ds).cyclic ↔ Definition.OnCycle ds v := by
  have hedges : (ofDefinitions ds).Edge = Definition.Imports ds := by
    funext v w
    exact propext edge_ofDefinitions
  rw [(proper_ofDefinitions ds).mem_cyclic_iff, hedges, Definition.OnCycle]

end ImportGraph

/-! ## Circular definitions -/

namespace Definition

instance decidableOnCycle (ds : List (Definition m)) (i : String) : Decidable (OnCycle ds i) :=
  decidable_of_iff (i ∈ (ImportGraph.ofDefinitions ds).cyclic) ImportGraph.mem_cyclic_ofDefinitions

/-- The definition is a type whose identifier lies on a cycle of imports among `ds`. -/
def Circular (ds : List (Definition m)) (d : Definition m) : Prop :=
  d.isType = true ∧ OnCycle ds d.identifier

instance decidableCircular (ds : List (Definition m)) (d : Definition m) :
    Decidable (Circular ds d) :=
  inferInstanceAs (Decidable (_ ∧ _))

end Definition

end SchemaRegistry
