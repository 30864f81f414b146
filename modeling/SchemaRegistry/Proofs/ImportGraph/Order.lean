import Mathlib.Data.Fintype.EquivFin
import Mathlib.Data.Fintype.Sets
import Mathlib.Data.List.Induction
import Mathlib.Order.WellFounded
import SchemaRegistry.Proofs.ImportGraph.Cycle

/-!
# The order of the import graph

`ImportGraph.layers` takes the nodes that import from no pending node, then those that import only from
the nodes taken before, and so on. Where no pending node reaches itself there is always such a node
(`exists_ready`), so nothing is left at the end (`exists_layers`). In the resulting list no node imports
from itself or from a later one (`importsFirst_of_layers`).

The nodes that lie on no cycle therefore always have an order (`Proper.exists_order`). What can be shown
of a node from the nodes it imports from holds of all of them (`Definition.imports_induction`).
-/

namespace SchemaRegistry.ImportGraph

open Relation

variable {g : ImportGraph} {pending order : List String}

/-- No node of the list imports from itself or from a later one. -/
structure ImportsFirst (g : ImportGraph) (order : List String) : Prop where
  not_self : ∀ v ∈ order, ¬ g.Edge v v
  not_later : order.Pairwise fun u v => ¬ g.Edge u v

theorem ImportsFirst.init {v : String} (h : g.ImportsFirst (order ++ [v])) : g.ImportsFirst order where
  not_self u hu := h.not_self u (List.mem_append_left _ hu)
  not_later := (List.pairwise_append.1 h.not_later).1

/-- Nothing in the list imports from its last node. -/
theorem ImportsFirst.not_edge_last {u v : String} (h : g.ImportsFirst (order ++ [v]))
    (hu : u ∈ order ++ [v]) : ¬ g.Edge u v := by
  have hv : v ∈ [v] := List.mem_singleton_self v
  rcases List.mem_append.1 hu with hu | hu
  · exact (List.pairwise_append.1 h.not_later).2.2 u hu v hv
  · obtain rfl := List.mem_singleton.1 hu
    exact h.not_self u (List.mem_append_right _ hv)

/-- A property holds of every node of the list if it passes from the imported nodes to the importing
one. -/
theorem ImportsFirst.induction {P : String → Prop} (h : g.ImportsFirst order)
    (hstep : ∀ v ∈ order, (∀ w ∈ order, g.Edge v w → P w) → P v) : ∀ v ∈ order, P v := by
  induction order using List.reverseRecOn with
  | nil => simp
  | append_singleton order u ih =>
    -- nothing imports from the last node, so it can be set aside at first
    have hinit : ∀ v ∈ order, P v := by
      refine ih h.init ?_
      intro v hv hbefore
      have hv' : v ∈ order ++ [u] := List.mem_append_left _ hv
      refine hstep v hv' ?_
      intro w hw hedge
      rcases List.mem_append.1 hw with hw | hw
      · exact hbefore w hw hedge
      · obtain rfl := List.mem_singleton.1 hw
        exact absurd hedge (h.not_edge_last hv')
    intro v hv
    rcases List.mem_append.1 hv with hmem | hmem
    · exact hinit v hmem
    · refine hstep v hv ?_
      intro w hw hedge
      rcases List.mem_append.1 hw with hw | hw
      · exact hinit w hw
      · obtain rfl := List.mem_singleton.1 hw
        exact absurd hedge (h.not_edge_last hv)

theorem isReady_iff {v : String} :
    g.isReady pending v = true ↔ ∀ w, g.Edge v w → w ∉ pending := by
  simp [isReady, mem_targets]

theorem mem_blocked {v : String} :
    v ∈ g.blocked pending ↔ v ∈ pending ∧ g.isReady pending v = false := by
  simp [blocked]

/-! ## One layer -/

/-- Where nothing reaches itself, some pending node imports from no pending node. -/
theorem exists_ready (hne : pending ≠ []) (hacyclic : ∀ v ∈ pending, ¬ TransGen g.Edge v v) :
    ∃ v ∈ pending, g.isReady pending v = true := by
  -- a minimal node of the well-founded relation "is imported, directly or not, by" is ready
  let r : {v // v ∈ pending} → {v // v ∈ pending} → Prop := fun a b => TransGen g.Edge b a
  have : IsTrans _ r := ⟨fun a b c hab hbc => TransGen.trans hbc hab⟩
  have : Std.Irrefl r := ⟨fun a h => hacyclic a.1 a.2 h⟩
  have hwf : WellFounded r := Finite.wellFounded_of_trans_of_irrefl r
  obtain ⟨u, hu⟩ := List.exists_mem_of_ne_nil pending hne
  obtain ⟨v, -, hmin⟩ := hwf.has_min Set.univ ⟨⟨u, hu⟩, trivial⟩
  refine ⟨v.1, v.2, isReady_iff.2 ?_⟩
  intro w hedge hw
  exact hmin ⟨w, hw⟩ trivial (TransGen.single hedge)

/-- A layer may stand before any order of what it blocks. -/
theorem ImportsFirst.prepend_layer (h : g.ImportsFirst order)
    (hsub : ∀ v ∈ order, v ∈ pending) :
    g.ImportsFirst (pending.filter (g.isReady pending) ++ order) := by
  have hready : ∀ u ∈ pending.filter (g.isReady pending), ∀ v ∈ pending, ¬ g.Edge u v := by
    intro u hu v hv hedge
    exact isReady_iff.1 (List.mem_filter.1 hu).2 v hedge hv
  have hpending : ∀ u ∈ pending.filter (g.isReady pending), u ∈ pending :=
    fun u hu => (List.mem_filter.1 hu).1
  constructor
  · intro v hv
    rcases List.mem_append.1 hv with hv | hv
    · exact hready v hv v (hpending v hv)
    · exact h.not_self v hv
  · refine List.pairwise_append.2 ⟨?_, h.not_later, ?_⟩
    · exact List.pairwise_of_forall_mem_list fun u hu v hv => hready u hu v (hpending v hv)
    · intro u hu v hv
      exact hready u hu v (hsub v hv)

/-! ## All layers -/

theorem perm_of_layers (h : g.layers pending = some order) : order.Perm pending := by
  fun_induction layers g pending generalizing order with
  | case1 pending hany ih =>
    obtain ⟨rest, hrest, rfl⟩ := Option.map_eq_some_iff.1 h
    have hsplit : (pending.filter (g.isReady pending) ++ g.blocked pending).Perm pending :=
      List.filter_append_perm (g.isReady pending) pending
    exact ((ih hrest).append_left _).trans hsplit
  | case2 hany =>
    obtain rfl := Option.some.inj h
    exact .refl _
  | case3 pending hany hne => simp at h

theorem importsFirst_of_layers (h : g.layers pending = some order) : g.ImportsFirst order := by
  fun_induction layers g pending generalizing order with
  | case1 pending hany ih =>
    obtain ⟨rest, hrest, rfl⟩ := Option.map_eq_some_iff.1 h
    refine (ih hrest).prepend_layer ?_
    intro v hv
    exact (mem_blocked.1 ((perm_of_layers hrest).mem_iff.1 hv)).1
  | case2 hany =>
    obtain rfl := Option.some.inj h
    exact ⟨by simp, .nil⟩
  | case3 pending hany hne => simp at h

theorem exists_layers (hacyclic : ∀ v ∈ pending, ¬ TransGen g.Edge v v) :
    ∃ order, g.layers pending = some order := by
  fun_induction layers g pending with
  | case1 pending hany ih =>
    obtain ⟨rest, hrest⟩ := ih fun v hv => hacyclic v (mem_blocked.1 hv).1
    exact ⟨_, by rw [hrest, Option.map_some]⟩
  | case2 hany => exact ⟨[], rfl⟩
  | case3 pending hany hne =>
    obtain ⟨v, hv, hready⟩ := exists_ready hne hacyclic
    exact absurd (List.any_eq_true.2 ⟨v, hv, hready⟩) hany

/-! ## The nodes on no cycle -/

/-- The nodes that lie on no cycle have an order, in which each of them stands once. -/
theorem Proper.exists_order (hg : g.Proper) :
    ∃ order, g.order? = some order ∧ g.ImportsFirst order ∧ order.Nodup ∧
      ∀ v, v ∈ order ↔ v ∈ g.nodes ∧ ¬ TransGen g.Edge v v := by
  have hmem : ∀ v, v ∈ g.nodes.filter (fun v => !g.cyclic.contains v) ↔
      v ∈ g.nodes ∧ ¬ TransGen g.Edge v v := by
    intro v
    simp [hg.mem_cyclic_iff]
  obtain ⟨order, horder⟩ := exists_layers fun v hv => ((hmem v).1 hv).2
  have hperm := perm_of_layers horder
  refine ⟨order, horder, importsFirst_of_layers horder, ?_, ?_⟩
  · exact hperm.nodup_iff.2 (hg.nodup.filter _)
  · intro v
    rw [hperm.mem_iff, hmem]

/-- The order lists the nodes that lie on no cycle, each of them once and after those it imports from. -/
structure TopologicalOrder (g : ImportGraph) (order : List String) : Prop where
  nodup : order.Nodup
  mem_iff : ∀ v, v ∈ order ↔ v ∈ g.nodes ∧ v ∉ g.cyclic
  not_later : order.Pairwise fun u v => ¬ g.Edge u v

theorem TopologicalOrder.importsFirst (h : g.TopologicalOrder order) (hg : g.Proper) :
    g.ImportsFirst order where
  not_self v hv hself := ((h.mem_iff v).1 hv).2 (hg.mem_cyclic_iff.2 (.single hself))
  not_later := h.not_later

/-- The order that is found is one of the possible ones. -/
theorem Proper.exists_topologicalOrder (hg : g.Proper) :
    ∃ order, g.order? = some order ∧ g.TopologicalOrder order := by
  obtain ⟨order, horder, hfirst, hnodup, hmem⟩ := hg.exists_order
  refine ⟨order, horder, hnodup, ?_, hfirst.not_later⟩
  intro v
  rw [hmem, hg.mem_cyclic_iff]

/-- The order of the types that lie on no cycle. -/
theorem exists_order_ofDefinitions {m : Type → Type} (ds : List (Definition m)) :
    ∃ order, (ofDefinitions ds).order? = some order ∧ (ofDefinitions ds).ImportsFirst order ∧
      order.Nodup ∧ ∀ v, v ∈ order ↔
        (∃ d ∈ ds, d.isTypeNamed v = true) ∧ ¬ Definition.OnCycle ds v := by
  have hg := proper_ofDefinitions ds
  obtain ⟨order, horder, hfirst, hnodup, hmem⟩ := hg.exists_order
  refine ⟨order, horder, hfirst, hnodup, ?_⟩
  intro v
  rw [hmem, mem_nodes_ofDefinitions, ← hg.mem_cyclic_iff, mem_cyclic_ofDefinitions]

end SchemaRegistry.ImportGraph

/-- A property holds of every type identifier that lies on no cycle if it passes from the imported
identifiers to the importing one. -/
theorem SchemaRegistry.Definition.imports_induction {m : Type → Type} {ds : List (Definition m)}
    {P : String → Prop}
    (hstep : ∀ u, ¬ OnCycle ds u → (∀ w, Imports ds u w → ¬ OnCycle ds w → P w) → P u) :
    ∀ u, (∃ d ∈ ds, d.isTypeNamed u = true) → ¬ OnCycle ds u → P u := by
  obtain ⟨order, -, hfirst, -, hmem⟩ := ImportGraph.exists_order_ofDefinitions ds
  have hall : ∀ u ∈ order, P u := by
    refine hfirst.induction ?_
    intro u hu hbefore
    refine hstep u ((hmem u).1 hu).2 ?_
    intro w hedge hcycle
    exact hbefore w ((hmem w).2 ⟨hedge.2, hcycle⟩) (ImportGraph.edge_ofDefinitions.2 hedge)
  intro u hu hcycle
  exact hall u ((hmem u).2 ⟨hu, hcycle⟩)
