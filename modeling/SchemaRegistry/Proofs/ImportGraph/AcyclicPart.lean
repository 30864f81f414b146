import SchemaRegistry.Proofs.CycleRule

/-!
# What is left of the import graph without its cycles

A graph can be sorted if and only if it has no cycle (`Proper.sorted?_eq_none_iff`): where there is none
some node is always ready, and in a sorted list positions decrease along edges
(`ImportsFirst.idxOf_lt_idxOf`). When all nodes that lie on a cycle are taken out of a graph, no cycle is
left (`Proper.acyclic_acyclicPart`), since every cycle among the others would be one of the whole graph.

`ImportGraph.order?` sorts what is left (`order?_eq_sorted?`). It is never without result, so the imports
between the types that the rule on cycles keeps are always carried out in order
(`acyclicPart_is_always_sorted`).
-/

namespace SchemaRegistry.ImportGraph

open Relation

variable {g g' : ImportGraph} {pending order : List String}

/-! ## Taking out nodes -/

/-- The graph without some nodes and the edges that begin or end at them. -/
def without (g : ImportGraph) (removed : List String) : ImportGraph where
  nodes := g.nodes.filter fun v => !removed.contains v
  edges := g.edges.filter fun e => !removed.contains e.1 && !removed.contains e.2

/-- What is left of a graph without the nodes that lie on a cycle. -/
def acyclicPart (g : ImportGraph) : ImportGraph := g.without g.cyclic

theorem mem_nodes_without {removed : List String} {v : String} :
    v ∈ (g.without removed).nodes ↔ v ∈ g.nodes ∧ v ∉ removed := by
  simp [without]

theorem edge_without {removed : List String} {v w : String} :
    (g.without removed).Edge v w ↔ g.Edge v w ∧ v ∉ removed ∧ w ∉ removed := by
  simp [without, Edge]

theorem Proper.without (hg : g.Proper) (removed : List String) : (g.without removed).Proper where
  nodup := hg.nodup.filter _
  source_mem v w h := by
    obtain ⟨hedge, hv, -⟩ := edge_without.1 h
    exact mem_nodes_without.2 ⟨hg.source_mem v w hedge, hv⟩
  target_mem v w h := by
    obtain ⟨hedge, -, hw⟩ := edge_without.1 h
    exact mem_nodes_without.2 ⟨hg.target_mem v w hedge, hw⟩

/-- Without the nodes that lie on a cycle there is no cycle. -/
theorem Proper.acyclic_acyclicPart (hg : g.Proper) (v : String) : ¬ TransGen g.acyclicPart.Edge v v := by
  intro hcycle
  have hedges : g.acyclicPart.Edge ≤ g.Edge := fun _ _ hedge => (edge_without.1 hedge).1
  have hwhole : TransGen g.Edge v v := TransGen.mono hedges v v hcycle
  obtain ⟨w, hedge, -⟩ := TransGen.head'_iff.1 hcycle
  exact (edge_without.1 hedge).2.1 (hg.mem_cyclic_iff.2 hwhole)

/-! ## Sorting a graph -/

/-- The nodes of a graph, each after those it imports from. -/
def sorted? (g : ImportGraph) : Option (List String) := g.layers g.nodes

/-- For the layers of some nodes only the edges between these count. -/
theorem layers_congr (h : ∀ v ∈ pending, ∀ w ∈ pending, g.Edge v w ↔ g'.Edge v w) :
    g.layers pending = g'.layers pending := by
  have hready : ∀ pending : List String,
      (∀ v ∈ pending, ∀ w ∈ pending, g.Edge v w ↔ g'.Edge v w) →
        ∀ v ∈ pending, g.isReady pending v = g'.isReady pending v := by
    intro pending h v hv
    rw [Bool.eq_iff_iff, isReady_iff, isReady_iff]
    constructor
    · intro hnone w hedge hw
      exact hnone w ((h v hv w hw).2 hedge) hw
    · intro hnone w hedge hw
      exact hnone w ((h v hv w hw).1 hedge) hw
  fun_induction layers g pending with
  | case1 pending hany ih =>
    have hfilter : pending.filter (g.isReady pending) = pending.filter (g'.isReady pending) :=
      List.filter_congr (hready pending h)
    have hblocked : g.blocked pending = g'.blocked pending := by
      refine List.filter_congr fun v hv => ?_
      rw [hready pending h v hv]
    have hany' : pending.any (g'.isReady pending) = true := by
      obtain ⟨v, hv, hv'⟩ := List.any_eq_true.1 hany
      exact List.any_eq_true.2 ⟨v, hv, hready pending h v hv ▸ hv'⟩
    have hrest := ih fun v hv w hw => h v (mem_blocked.1 hv).1 w (mem_blocked.1 hw).1
    conv_rhs => rw [layers, if_pos hany', ← hfilter, ← hblocked, ← hrest]
  | case2 hany => simp [layers]
  | case3 pending hany hne =>
    have hany' : ¬ pending.any (g'.isReady pending) = true := by
      intro hany'
      obtain ⟨v, hv, hv'⟩ := List.any_eq_true.1 hany'
      exact hany (List.any_eq_true.2 ⟨v, hv, (hready pending h v hv).symm ▸ hv'⟩)
    conv_rhs => rw [layers, if_neg hany', if_neg hne]

/-- The order of a graph is found by sorting what is left of it without its cycles. -/
theorem order?_eq_sorted? (g : ImportGraph) : g.order? = g.acyclicPart.sorted? := by
  have hkept : ∀ u ∈ g.acyclicPart.nodes, u ∉ g.cyclic := fun u hu => (mem_nodes_without.1 hu).2
  refine layers_congr ?_
  intro v hv w hw
  rw [acyclicPart, edge_without]
  exact ⟨fun hedge => ⟨hedge, hkept v hv, hkept w hw⟩, fun hedge => hedge.1⟩

/-- Along an edge one gets to an earlier position. -/
theorem ImportsFirst.idxOf_lt_idxOf (h : g.ImportsFirst order) {v w : String} (hv : v ∈ order)
    (hw : w ∈ order) (hedge : g.Edge v w) : order.idxOf w < order.idxOf v := by
  have hv' := List.idxOf_lt_length_of_mem hv
  have hw' := List.idxOf_lt_length_of_mem hw
  rcases Nat.lt_trichotomy (order.idxOf w) (order.idxOf v) with hlt | heq | hgt
  · exact hlt
  · obtain rfl : w = v := (List.idxOf_inj hw).1 heq
    exact absurd hedge (h.not_self _ hv)
  · have hlater := List.pairwise_iff_getElem.1 h.not_later _ _ hv' hw' hgt
    rw [List.getElem_idxOf, List.getElem_idxOf] at hlater
    exact absurd hedge hlater

/-- What is sorted has no cycle. -/
theorem ImportsFirst.acyclic (h : g.ImportsFirst order) (hg : g.Proper)
    (hall : ∀ v ∈ g.nodes, v ∈ order) (v : String) : ¬ TransGen g.Edge v v := by
  have hedges : ∀ u w, g.Edge u w → order.idxOf w < order.idxOf u := fun u w hedge =>
    h.idxOf_lt_idxOf (hall u (hg.source_mem u w hedge)) (hall w (hg.target_mem u w hedge)) hedge
  have hpaths : ∀ w, TransGen g.Edge v w → order.idxOf w < order.idxOf v := by
    intro w hpath
    induction hpath with
    | single hedge => exact hedges v _ hedge
    | tail _ hedge ih => exact (hedges _ _ hedge).trans ih
  exact fun hcycle => lt_irrefl _ (hpaths v hcycle)

/-- Sorting fails because of a cycle, and only then. -/
theorem Proper.sorted?_eq_none_iff (hg : g.Proper) :
    g.sorted? = none ↔ ∃ v, TransGen g.Edge v v := by
  constructor
  · intro hnone
    by_contra hacyclic
    have hnodes : ∀ v ∈ g.nodes, ¬ TransGen g.Edge v v := fun v _ hcycle => hacyclic ⟨v, hcycle⟩
    obtain ⟨order, horder⟩ := exists_layers hnodes
    cases hnone.symm.trans horder
  · rintro ⟨v, hcycle⟩
    rw [Option.eq_none_iff_forall_ne_some]
    intro order horder
    have hall : ∀ v ∈ g.nodes, v ∈ order := fun v hv => (perm_of_layers horder).mem_iff.2 hv
    exact (importsFirst_of_layers horder).acyclic hg hall v hcycle

end SchemaRegistry.ImportGraph

namespace SchemaRegistry

open Relation
open Definition (Imports survivors)
open ImportGraph (edge_without mem_nodes_without)

variable {m : Type → Type}

/-- The types and their imports that are left without the identifiers on a cycle, which import from themselves
or belong to a strongly connected component with other members, form a graph without cycles, whatever the
definitions are. So sorting it succeeds: each of the remaining identifiers is listed
once, and before every type that imports from it. This is the order in which the rule on cycles carries
out the imports. -/
theorem acyclicPart_is_always_sorted (ds : List (Definition m)) :
    (∀ v, v ∈ (ImportGraph.ofDefinitions ds).cyclic ↔ Imports ds v v ∨
        ∃ w, w ≠ v ∧ TransGen (Imports ds) v w ∧ TransGen (Imports ds) w v) ∧
      (∀ v w, (ImportGraph.ofDefinitions ds).acyclicPart.Edge v w ↔
        Imports ds v w ∧ v ∉ (ImportGraph.ofDefinitions ds).cyclic ∧
          w ∉ (ImportGraph.ofDefinitions ds).cyclic) ∧
      (∀ v, ¬ TransGen (ImportGraph.ofDefinitions ds).acyclicPart.Edge v v) ∧
      ∃ order, (ImportGraph.ofDefinitions ds).acyclicPart.sorted? = some order ∧
        (ImportGraph.ofDefinitions ds).order? = some order ∧
        order.Nodup ∧
        (∀ v, v ∈ order ↔ (∃ d ∈ ds, d.isTypeNamed v = true) ∧
          v ∉ (ImportGraph.ofDefinitions ds).cyclic) ∧
        (∀ v w, Imports ds v w → v ∉ (ImportGraph.ofDefinitions ds).cyclic →
          w ∉ (ImportGraph.ofDefinitions ds).cyclic → order.idxOf w < order.idxOf v) ∧
        ∀ diagnostics, (Rule.importsAcyclic.check ⟨ds, diagnostics⟩).definitions =
          (survivors ds).map (importFields (resolveFields (survivors ds) order)) := by
  have hg := ImportGraph.proper_ofDefinitions ds
  have hrest := hg.without (ImportGraph.ofDefinitions ds).cyclic
  have hedge : ∀ v w, (ImportGraph.ofDefinitions ds).acyclicPart.Edge v w ↔
      Imports ds v w ∧ v ∉ (ImportGraph.ofDefinitions ds).cyclic ∧
        w ∉ (ImportGraph.ofDefinitions ds).cyclic := by
    intro v w
    rw [ImportGraph.acyclicPart, edge_without, ImportGraph.edge_ofDefinitions]
  have hcyclic : ∀ v, v ∈ (ImportGraph.ofDefinitions ds).cyclic ↔ Imports ds v v ∨
      ∃ w, w ≠ v ∧ TransGen (Imports ds) v w ∧ TransGen (Imports ds) w v := fun v =>
    ImportGraph.mem_cyclic_ofDefinitions.trans Definition.onCycle_iff_component
  refine ⟨hcyclic, hedge, hg.acyclic_acyclicPart, ?_⟩
  -- sorting would fail because of a cycle only
  have hsome : (ImportGraph.ofDefinitions ds).acyclicPart.sorted? ≠ none := by
    intro hnone
    obtain ⟨v, hcycle⟩ := hrest.sorted?_eq_none_iff.1 hnone
    exact hg.acyclic_acyclicPart v hcycle
  obtain ⟨order, hsorted⟩ := Option.ne_none_iff_exists'.1 hsome
  have horder := (ImportGraph.order?_eq_sorted? _).trans hsorted
  have hperm : order.Perm (ImportGraph.ofDefinitions ds).acyclicPart.nodes :=
    ImportGraph.perm_of_layers hsorted
  have hmem : ∀ v, v ∈ order ↔ (∃ d ∈ ds, d.isTypeNamed v = true) ∧
      v ∉ (ImportGraph.ofDefinitions ds).cyclic := by
    intro v
    rw [hperm.mem_iff, ImportGraph.acyclicPart, mem_nodes_without,
      ImportGraph.mem_nodes_ofDefinitions]
  refine ⟨order, hsorted, horder, hperm.nodup_iff.2 hrest.nodup, hmem, ?_, ?_⟩
  · intro v w himports hv hw
    have hv' : v ∈ order := (hmem v).2 ⟨?_, hv⟩
    · exact (ImportGraph.importsFirst_of_layers hsorted).idxOf_lt_idxOf hv'
        ((hmem w).2 ⟨himports.2, hw⟩) ((hedge v w).2 ⟨himports, hv, hw⟩)
    · obtain ⟨d, hd, hname, -⟩ := himports.1
      exact ⟨d, hd, hname⟩
  · intro diagnostics
    rw [Rule.check_importsAcyclic, Definition.completeFields, horder, Option.getD_some]

end SchemaRegistry
