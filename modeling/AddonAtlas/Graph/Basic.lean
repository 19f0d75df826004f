import AddonAtlas.Ordered.Set

/-!
Directed graphs with named nodes.

A graph gives each of its nodes the set of targets of its edges. A target need not be a node; an
edge whose two ends are nodes is an inner edge.
-/

namespace AddonAtlas

/-- The targets of each node. -/
abbrev Graph := NameMap NameSet

namespace Graph

def nodes (g : Graph) : List String := g.keys

def hasNode (g : Graph) (n : String) : Bool := g.contains n

/-- The targets of a node; none for a name that is no node. -/
def targets (g : Graph) (n : String) : NameSet := g.getD n .empty

/-- The same nodes with inner edges only. -/
def restrict (g : Graph) : Graph := g.mapValues fun _ ts => ts.filter g.hasNode

/-- Everything that some edge leads to. -/
def targeted (g : Graph) : NameSet := .ofList (g.values.flatMap OrdSet.toList)

/-- The inner edges with their two ends, without the nodes that have none. -/
def elideLonely (g : Graph) : Graph :=
  let inner := g.restrict
  let met := inner.targeted
  inner.filter fun n ts => !ts.isEmpty || met.contains n

end Graph

end AddonAtlas
