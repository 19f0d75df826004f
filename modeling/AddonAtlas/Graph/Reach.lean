import AddonAtlas.Graph.Basic

/-!
What can be reached in a graph along inner edges.
-/

namespace AddonAtlas.Graph

/-- The nodes met on a walk from pending ones, through nodes that have not been met before. -/
def explore (g : Graph) (unmet : List String) : List String → List String
  | [] => []
  | n :: pending =>
    if n ∈ unmet then n :: explore g (unmet.erase n) ((g.targets n).toList ++ pending)
    else explore g unmet pending
termination_by pending => (unmet.length, pending.length)
decreasing_by
  · have := List.length_erase_of_mem ‹n ∈ unmet›
    have := List.length_pos_of_mem ‹n ∈ unmet›
    exact Prod.Lex.left _ _ (by omega)
  · exact Prod.Lex.right _ (by simp)

/-- The given names and all nodes that can be reached from them. -/
def reachable (g : Graph) (start : List String) : NameSet :=
  .ofList (start ++ g.explore g.nodes start)

/-- The nodes that can be reached from a node, the node itself apart. -/
def closure (g : Graph) (start : String) : NameSet :=
  (OrdSet.ofList (g.explore g.nodes [start])).erase start

end AddonAtlas.Graph
