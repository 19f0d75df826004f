import AddonAtlas.Proofs.Graph.Cycles
import AddonAtlas.Proofs.Graph.Reach

/-!
Queries that go by inner edges, and what eliding changes of their answers: nothing.

Which nodes are lonely, which edges peeling leaves and what a search finds depends on the inner
edges of a graph only. Eliding keeps them all and makes no new ones, so it can stand before any of
these queries, itself included.
-/

open Relation

namespace AddonAtlas.Graph

variable {g h : Graph} {n : String} {start : List String}

/-- A graph is its nodes with their targets. -/
lemma ext_targets (hnodes : ∀ n, g.hasNode n = true ↔ h.hasNode n = true)
    (htargets : ∀ u v, v ∈ (g.targets u).toList ↔ v ∈ (h.targets u).toList) : g = h :=
  OrdMap.ext_get? fun n => by
    have hsame : g.targets n = h.targets n := OrdSet.ext_mem (htargets n)
    cases hg : g.get? n with
    | none =>
      have hnone : ¬ h.hasNode n = true := fun hn => by
        obtain ⟨ts, hts⟩ := hasNode_iff.1 ((hnodes n).2 hn)
        rw [hg] at hts
        cases hts
      cases hh : h.get? n with
      | none => rfl
      | some ts => exact absurd (hasNode_iff.2 ⟨ts, hh⟩) hnone
    | some ts =>
      obtain ⟨ts', hh⟩ := hasNode_iff.1 ((hnodes n).1 (hasNode_iff.2 ⟨ts, hg⟩))
      rw [hh, ← targets_eq hg, hsame, targets_eq hh]

/-! ## Graphs with the same inner edges -/

lemma elideLonely_congr (hinner : g.Inner = h.Inner) : g.elideLonely = h.elideLonely := by
  refine ext_targets (fun n => ?_) fun u v => ?_
  · rw [hasNode_elideLonely, hasNode_elideLonely, Linked, Linked, hinner]
  · rw [mem_targets_elideLonely, mem_targets_elideLonely, hinner]

/-- The nodes that peeling leaves are those with an edge that it leaves. -/
lemma hasNode_core : g.core.hasNode n = true ↔ ∃ v, (n, v) ∈ g.cycleEdges := by
  simp only [cycleEdges, mem_edges]
  constructor
  · intro hn
    obtain ⟨v, hv⟩ := (settled_core g).out n hn
    exact ⟨v, hv.edge⟩
  · rintro ⟨v, hv⟩
    exact hasNode_of_mem_targets hv

lemma cycleEdges_congr (hinner : g.Inner = h.Inner) : g.cycleEdges = h.cycleEdges := by
  have hedges (u v : String) : (u, v) ∈ g.cycleEdges ↔ (u, v) ∈ h.cycleEdges := by
    simp only [mem_cycleEdges, AfterCycle, BeforeCycle, hinner]
  have hcore : g.core = h.core := by
    refine ext_targets (fun n => ?_) fun u v => ?_
    · simp only [hasNode_core, hedges]
    · rw [← mem_edges, ← mem_edges]
      exact hedges u v
  rw [cycleEdges, hcore, cycleEdges]

/-- A name that is no node is reached from itself, but not from elsewhere. -/
lemma mem_reachable_iff_path :
    n ∈ (g.reachable start).toList ↔ ∃ s ∈ start, ReflTransGen g.Inner s n := by
  rw [mem_reachable]
  constructor
  · rintro (hn | ⟨s, hs, -, hsn⟩)
    · exact ⟨n, hn, .refl⟩
    · exact ⟨s, hs, hsn⟩
  · rintro ⟨s, hs, hsn⟩
    rcases hsn.cases_head with rfl | ⟨m, hsm, -⟩
    · exact .inl hs
    · exact .inr ⟨s, hs, hsm.source, hsn⟩

lemma reachable_congr (hinner : g.Inner = h.Inner) (start : List String) :
    g.reachable start = h.reachable start := OrdSet.ext_mem fun n => by
  rw [mem_reachable_iff_path, mem_reachable_iff_path, hinner]

/-! ## Eliding -/

lemma inner_elideLonely_eq (g : Graph) : g.elideLonely.Inner = g.Inner := by
  ext u v
  exact inner_elideLonely

/-- Of the targets of a node those are nodes that an inner edge leads to. -/
lemma restrict_eq_filter_targeted (g : Graph) :
    g.restrict = g.mapValues fun _ ts => ts.filter g.restrict.targeted.contains := by
  refine OrdMap.ext_get? fun n => ?_
  rw [restrict, OrdMap.get?_mapValues, OrdMap.get?_mapValues, ← restrict]
  cases hn : g.get? n with
  | none => rfl
  | some ts =>
    have hsame : ts.filter g.hasNode = ts.filter g.restrict.targeted.contains :=
      OrdSet.ext_mem fun v => by
        rw [OrdSet.mem_filter, OrdSet.mem_filter, contains_targeted_restrict, and_congr_right_iff]
        intro hv
        rw [← targets_eq hn] at hv
        constructor
        · intro hnode
          exact ⟨n, inner_iff.2 ⟨hv, hnode⟩⟩
        · rintro ⟨u, huv⟩
          exact huv.target
    rw [Option.map_some, Option.map_some, hsame]

/-- **What eliding keeps.** The ends of inner edges, also of those from a node to itself, with just
these edges; it does not matter whether targets are kept for being nodes or for being led to.
Eliding twice is eliding once, and neither what peeling leaves nor what a search finds is changed
by it. -/
theorem elideLonely_keeps (g : Graph) :
    (∀ n, n ∈ g.elideLonely.nodes ↔ ∃ m, g.Inner n m ∨ g.Inner m n) ∧
    (∀ u v, v ∈ (g.elideLonely.targets u).toList ↔ g.Inner u v) ∧
    (g.elideLonely = (g.mapValues fun _ ts => ts.filter g.restrict.targeted.contains).filter
      fun n ts => !ts.isEmpty || g.restrict.targeted.contains n) ∧
    g.elideLonely.elideLonely = g.elideLonely ∧
    g.elideLonely.cycleEdges = g.cycleEdges ∧
    ∀ start, g.elideLonely.reachable start = g.reachable start := by
  refine ⟨fun n => ?_, fun u v => mem_targets_elideLonely, ?_,
    elideLonely_congr (inner_elideLonely_eq g), cycleEdges_congr (inner_elideLonely_eq g),
    reachable_congr (inner_elideLonely_eq g)⟩
  · rw [mem_nodes, hasNode_elideLonely, Linked]
  · rw [← restrict_eq_filter_targeted]
    rfl

/-- A node with an edge to itself stays, one with a dangling target only goes. -/
example : elideLonely (.ofList [("a", .ofList ["a", "x"]), ("b", .ofList ["x"]), ("c", .empty)]) =
    .ofList [("a", .ofList ["a"])] := by cbv

end AddonAtlas.Graph
