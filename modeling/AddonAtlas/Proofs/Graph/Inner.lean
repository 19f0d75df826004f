import AddonAtlas.Graph.Cycle
import AddonAtlas.Proofs.Ordered.Lookup

/-!
The inner edges of a graph, and what restricting, eliding and peeling keep of them.

Targets need not be nodes, and the operations disagree on which dangling targets they carry
along. Inner edges are what they agree on.
-/

namespace AddonAtlas.Graph

variable {g : Graph} {u v n : String}

/-- An edge whose two ends are nodes. -/
structure Inner (g : Graph) (u v : String) : Prop where
  source : g.hasNode u = true
  target : g.hasNode v = true
  edge : v ∈ (g.targets u).toList

/-- An end of an inner edge. -/
def Linked (g : Graph) (n : String) : Prop := ∃ m, g.Inner n m ∨ g.Inner m n

lemma hasNode_iff : g.hasNode n = true ↔ ∃ ts, g.get? n = some ts := OrdMap.contains_iff_exists

lemma mem_nodes : n ∈ g.nodes ↔ g.hasNode n = true := OrdMap.contains_iff_mem_keys.symm

lemma targets_eq {ts : NameSet} (h : g.get? n = some ts) : g.targets n = ts := by
  simp [targets, OrdMap.getD, h]

lemma mem_targets : v ∈ (g.targets u).toList ↔ ∃ ts, g.get? u = some ts ∧ v ∈ ts.toList := by
  cases h : g.get? u with
  | none => simp [targets, OrdMap.getD, h, OrdSet.empty]
  | some ts => simp [targets_eq h]

lemma hasNode_of_mem_targets (h : v ∈ (g.targets u).toList) : g.hasNode u = true := by
  obtain ⟨ts, hts, -⟩ := mem_targets.1 h
  exact hasNode_iff.2 ⟨ts, hts⟩

lemma inner_iff : g.Inner u v ↔ v ∈ (g.targets u).toList ∧ g.hasNode v = true :=
  ⟨fun h => ⟨h.edge, h.target⟩, fun h => ⟨hasNode_of_mem_targets h.1, h.2, h.1⟩⟩

lemma mem_targeted : n ∈ g.targeted.toList ↔ ∃ u, n ∈ (g.targets u).toList := by
  simp only [targeted, OrdSet.mem_ofList, List.mem_flatMap, OrdMap.mem_values_iff, mem_targets]
  constructor
  · rintro ⟨ts, ⟨u, hu⟩, hn⟩
    exact ⟨u, ts, hu, hn⟩
  · rintro ⟨u, ts, hu, hn⟩
    exact ⟨ts, ⟨u, hu⟩, hn⟩

/-! ## Restricting -/

@[simp] lemma hasNode_restrict : g.restrict.hasNode n = g.hasNode n := by
  simp [hasNode, OrdMap.contains, restrict]

@[simp] lemma mem_targets_restrict : v ∈ (g.restrict.targets u).toList ↔ g.Inner u v := by
  rw [mem_targets, inner_iff, mem_targets]
  simp only [restrict, OrdMap.get?_mapValues, Option.map_eq_some_iff]
  constructor
  · rintro ⟨-, ⟨ts, hts, rfl⟩, hv⟩
    exact ⟨⟨ts, hts, (OrdSet.mem_filter.1 hv).1⟩, (OrdSet.mem_filter.1 hv).2⟩
  · rintro ⟨⟨ts, hts, hv⟩, hn⟩
    exact ⟨_, ⟨ts, hts, rfl⟩, OrdSet.mem_filter.2 ⟨hv, hn⟩⟩

lemma isEmpty_targets_restrict :
    (!(g.restrict.targets n).isEmpty) = true ↔ ∃ m, g.Inner n m := by
  rw [Bool.not_eq_true', ← Bool.not_eq_true, OrdSet.isEmpty_iff, List.eq_nil_iff_forall_not_mem]
  simp only [mem_targets_restrict, not_forall, not_not]

lemma contains_targeted_restrict :
    g.restrict.targeted.contains n = true ↔ ∃ m, g.Inner m n := by
  rw [OrdSet.contains_iff, mem_targeted]
  simp only [mem_targets_restrict]

/-! ## Keeping some nodes -/

lemma hasNode_filter {p : String → NameSet → Bool} :
    hasNode (g.filter p) n = true ↔ g.hasNode n = true ∧ p n (g.targets n) = true := by
  simp only [hasNode_iff, OrdMap.get?_filter, Option.filter_eq_some_iff]
  constructor
  · rintro ⟨ts, hts, hp⟩
    exact ⟨⟨ts, hts⟩, targets_eq hts ▸ hp⟩
  · rintro ⟨⟨ts, hts⟩, hp⟩
    exact ⟨ts, hts, targets_eq hts ▸ hp⟩

lemma mem_targets_filter {p : String → NameSet → Bool} :
    v ∈ (targets (g.filter p) u).toList ↔
      hasNode (g.filter p) u = true ∧ v ∈ (g.targets u).toList := by
  rw [hasNode_filter, mem_targets, mem_targets]
  simp only [OrdMap.get?_filter, Option.filter_eq_some_iff]
  constructor
  · rintro ⟨ts, ⟨hts, hp⟩, hv⟩
    exact ⟨⟨hasNode_iff.2 ⟨ts, hts⟩, targets_eq hts ▸ hp⟩, ts, hts, hv⟩
  · rintro ⟨⟨-, hp⟩, ts, hts, hv⟩
    exact ⟨ts, ⟨hts, targets_eq hts ▸ hp⟩, hv⟩

/-! ## Eliding -/

lemma hasNode_elideLonely : g.elideLonely.hasNode n = true ↔ g.Linked n := by
  simp only [elideLonely, hasNode_filter, hasNode_restrict, Bool.or_eq_true,
    isEmpty_targets_restrict, contains_targeted_restrict, Linked, exists_or]
  refine ⟨And.right, fun h => ⟨?_, h⟩⟩
  rcases h with ⟨m, hm⟩ | ⟨m, hm⟩
  · exact hm.source
  · exact hm.target

lemma mem_targets_elideLonely : v ∈ (g.elideLonely.targets u).toList ↔ g.Inner u v := by
  refine ⟨fun h => mem_targets_restrict.1 (mem_targets_filter.1 h).2, fun h => ?_⟩
  exact mem_targets_filter.2 ⟨hasNode_elideLonely.2 ⟨v, .inl h⟩, mem_targets_restrict.2 h⟩

lemma inner_elideLonely : g.elideLonely.Inner u v ↔ g.Inner u v := by
  rw [inner_iff, mem_targets_elideLonely, hasNode_elideLonely]
  exact ⟨And.left, fun h => ⟨h, u, .inr h⟩⟩

/-! ## Peeling -/

lemma hasNode_peel :
    g.peel.hasNode n = true ↔ (∃ m, g.Inner n m) ∧ ∃ m, g.Inner m n := by
  simp only [peel, hasNode_filter, hasNode_restrict, Bool.and_eq_true,
    isEmpty_targets_restrict, contains_targeted_restrict]
  exact ⟨And.right, fun h => ⟨h.1.choose_spec.source, h⟩⟩

lemma mem_targets_peel :
    v ∈ (g.peel.targets u).toList ↔ g.peel.hasNode u = true ∧ g.Inner u v := by
  rw [peel, mem_targets_filter, mem_targets_restrict]

end AddonAtlas.Graph
