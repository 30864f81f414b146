import SchemaRegistry.Definition

/-!
# The import graph

The types of a schema and the imports between them form a graph: its nodes are the identifiers of the
types, and there is an edge from each type to each node it imports fields from. Several definitions with
one identifier are one node. Imports from types that do not exist are no edges.

`ImportGraph.cyclic` lists the nodes that lie on a cycle, and `ImportGraph.order?` puts the others into
an order in which every node comes after the nodes it imports from.
-/

namespace SchemaRegistry

variable {m : Type → Type}

/-- A graph on identifiers. -/
structure ImportGraph where
  /-- The nodes, each once. -/
  nodes : List String
  /-- The edges, from the importing to the imported node. -/
  edges : List (String × String)

namespace ImportGraph

/-- The graph of the types among the definitions. -/
def ofDefinitions (ds : List (Definition m)) : ImportGraph :=
  let nodes := (Definition.typeIdentifiers ds).eraseDups
  let edgesOf (d : Definition m) : List (String × String) :=
    (d.fieldImports.filter (fun i => nodes.contains i.target)).map fun i => (d.identifier, i.target)
  ⟨nodes, (ds.filter (·.isType)).flatMap edgesOf⟩

/-- The nodes that a node imports from. -/
def targets (g : ImportGraph) (v : String) : List String :=
  (g.edges.filter (·.1 == v)).map (·.2)

/-- What stays of `unseen` when everything is taken out that can be reached from the nodes of `work`. A
node that is taken from `work` for the first time is taken out, and its targets are to be looked at
next; a node that is no longer in `unseen` has had its turn. -/
def unreached (g : ImportGraph) : List String → List String → List String
  | unseen, [] => unseen
  | unseen, v :: work =>
    if v ∈ unseen then unreached g (unseen.erase v) (g.targets v ++ work)
    else unreached g unseen work
termination_by unseen work => (unseen.length, work.length)
decreasing_by
  · rename_i h
    have := List.length_erase_of_mem h
    have := List.length_pos_of_mem h
    simp only [Prod.lex_def]
    omega
  · simp [Prod.lex_def]

/-- Whether a node reaches itself along one or more edges. -/
def isCyclic (g : ImportGraph) (v : String) : Bool :=
  !(g.unreached g.nodes (g.targets v)).contains v

/-- The nodes that lie on a cycle. -/
def cyclic (g : ImportGraph) : List String := g.nodes.filter g.isCyclic

/-- Whether a node imports from none of the pending nodes. -/
def isReady (g : ImportGraph) (pending : List String) (v : String) : Bool :=
  (g.targets v).all fun w => !pending.contains w

/-- The pending nodes that import from a pending node. -/
def blocked (g : ImportGraph) (pending : List String) : List String :=
  pending.filter fun v => !g.isReady pending v

/-- Puts nodes into layers: first those that import from none of the others, then those that import only
from the layers before. There is no order if nodes are left each of which imports from another. -/
def layers (g : ImportGraph) (pending : List String) : Option (List String) :=
  if pending.any (g.isReady pending) then
    (layers g (g.blocked pending)).map (pending.filter (g.isReady pending) ++ ·)
  else if pending = [] then some []
  else none
termination_by pending.length
decreasing_by
  rename_i h
  obtain ⟨v, hv, hready⟩ := List.any_eq_true.1 h
  refine List.length_filter_lt_length_iff_exists.2 ⟨v, hv, ?_⟩
  simp [hready]

/-- The nodes that lie on no cycle, each after those it imports from. -/
def order? (g : ImportGraph) : Option (List String) :=
  let cyclic := g.cyclic
  g.layers (g.nodes.filter (fun v => !cyclic.contains v))

end ImportGraph

end SchemaRegistry
