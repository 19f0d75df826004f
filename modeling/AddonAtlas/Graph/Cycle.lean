import AddonAtlas.Graph.Basic

/-!
The edges of a graph that are left when its acyclic fringe is peeled off.

A round of peeling keeps the nodes that have an inner edge going out and one coming in. Rounds
follow until one of them keeps all nodes.
-/

namespace AddonAtlas.Graph

/-- One round of peeling. -/
def peel (g : Graph) : Graph :=
  let inner := g.restrict
  let met := inner.targeted
  inner.filter fun n ts => !ts.isEmpty && met.contains n

/-- What is left when peeling changes nothing more. -/
def core (g : Graph) : Graph :=
  if g.peel.size < g.size then core g.peel else g.peel
termination_by g.size

/-- An edge, by its two ends. -/
abbrev Edge := String × String

/-- All edges, in the order of their ends. -/
def edges (g : Graph) : List Edge := g.entries.flatMap fun e => e.2.toList.map fun t => (e.1, t)

/-- The edges on cycles and between them. -/
def cycleEdges (g : Graph) : List Edge := g.core.edges

end AddonAtlas.Graph
