import AddonAtlas.Graph.View
import AddonAtlas.Proofs.Graph.Cycles

/-!
What a view of a graph shows: the visible names in order, and each edge between two of them once.
-/

namespace AddonAtlas

/-- The two ends of an edge. -/
def GraphEdge.ends (e : GraphEdge) : Graph.Edge := (e.source, e.target)

namespace GraphView

/-- The names of the nodes. -/
def names (v : GraphView) : List String := v.nodes.map GraphNode.name

/-- The edges by their ends. -/
def pairs (v : GraphView) : List Graph.Edge := v.edges.map GraphEdge.ends

variable {g : Graph} {visible : NameSet} {cycles : List Graph.Edge} {u v : String}

@[simp] lemma names_build : (build g visible cycles).names = visible.toList := by
  have h : GraphNode.name ∘ nodeOf g = id := rfl
  simp [names, build, h]

lemma pairs_build : (build g visible cycles).pairs = visible.toList.flatMap fun n =>
    ((g.targets n).toList.filter visible.contains).map fun t => (n, t) := by
  simp [pairs, build, edgesOf, List.map_flatMap, Function.comp_def, GraphEdge.ends]

lemma mem_pairs_build :
    (u, v) ∈ (build g visible cycles).pairs ↔
      u ∈ visible.toList ∧ v ∈ visible.toList ∧ v ∈ (g.targets u).toList := by
  simp only [pairs_build, List.mem_flatMap, List.mem_map, List.mem_filter, OrdSet.contains_iff,
    Prod.mk.injEq]
  constructor
  · rintro ⟨n, hn, t, ⟨ht, hvis⟩, rfl, rfl⟩
    exact ⟨hn, hvis, ht⟩
  · rintro ⟨hu, hvis, hv⟩
    exact ⟨u, hu, v, ⟨hv, hvis⟩, rfl, rfl⟩

lemma nodup_pairs_build : (build g visible cycles).pairs.Nodup := by
  rw [pairs_build]
  refine Graph.nodup_pairs ?_ fun n _ => (g.targets n).nodup.filter _
  simpa using visible.nodup

lemma inCycle_of_mem_build {e : GraphEdge} (h : e ∈ (build g visible cycles).edges) :
    e.inCycle = true ↔ e.ends ∈ cycles := by
  simp only [build, edgesOf, List.mem_flatMap, List.mem_map] at h
  obtain ⟨n, -, t, -, rfl⟩ := h
  simp [GraphEdge.ends]

lemma base_of_mem_build {x : GraphNode} (h : x ∈ (build g visible cycles).nodes)
    (hx : g.hasNode x.name = true) : x.base = true ↔ ∀ v, v ∉ (g.targets x.name).toList := by
  simp only [build, List.mem_map] at h
  obtain ⟨n, -, rfl⟩ := h
  obtain ⟨ts, hts⟩ := Graph.hasNode_iff.1 hx
  simp only [nodeOf] at hts ⊢
  rw [hts, Graph.targets_eq hts, Option.any_some, OrdSet.isEmpty_iff,
    List.eq_nil_iff_forall_not_mem]

end GraphView

end AddonAtlas
