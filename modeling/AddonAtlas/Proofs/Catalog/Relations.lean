import AddonAtlas.Catalog.Graphs
import AddonAtlas.Proofs.Catalog.Selection
import AddonAtlas.Proofs.Graph.Inner

/-!
The graph of the selected packages, and what adding packages of the full set makes of a graph.
-/

namespace AddonAtlas

open OrdMap OrdSet

lemma Package.mem_related {p : Package} {rs : List Relation} {v : String} :
    v ∈ (p.related rs).toList ↔ ∃ r ∈ rs, v ∈ (p.relation r).toList := by
  have hfold : ∀ s : NameSet,
      v ∈ (rs.foldl (fun s r => s.union (p.relation r)) s).toList ↔
        v ∈ s.toList ∨ ∃ r ∈ rs, v ∈ (p.relation r).toList := by
    induction rs with
    | nil => simp
    | cons r rs ih =>
      intro s
      simp only [List.foldl_cons, ih, mem_union, List.mem_cons, exists_eq_or_imp, or_assoc]
  rw [Package.related, hfold]
  simp [OrdSet.empty]

namespace Catalog

variable {c : Catalog} {rs : List Relation} {g : Graph} {names : NameSet} {u v n : String}

/-- A package of the full set names another in one of some ways. -/
def Relates (c : Catalog) (rs : List Relation) (u v : String) : Prop :=
  ∃ p, c.full.get? u = some p ∧ ∃ r ∈ rs, v ∈ (p.relation r).toList

lemma relates_iff : c.Relates rs u v ↔
    ∃ ts, (c.full.get? u).map (·.related rs) = some ts ∧ v ∈ ts.toList := by
  simp only [Relates, ← Package.mem_related, Option.map_eq_some_iff]
  constructor
  · rintro ⟨p, hp, hv⟩
    exact ⟨_, ⟨p, hp, rfl⟩, hv⟩
  · rintro ⟨_, ⟨p, hp, rfl⟩, hv⟩
    exact ⟨p, hp, hv⟩

/-! ## Selected packages -/

lemma WellKeyed.get?_relationGraph (h : c.WellKeyed) {ts : NameSet} :
    (c.relationGraph rs).get? n = some ts ↔
      n ∈ c.selected.toList ∧ (c.full.get? n).map (·.related rs) = some ts :=
  h.get?_ofList_packages (Package.related · rs)

lemma WellKeyed.hasNode_relationGraph (h : c.WellKeyed) :
    (c.relationGraph rs).hasNode n = true ↔ n ∈ c.selected.toList := by
  rw [Graph.hasNode, contains_iff_mem_keys]
  exact h.mem_keys_ofList_packages (Package.related · rs)

lemma WellKeyed.mem_targets_relationGraph (h : c.WellKeyed) :
    v ∈ ((c.relationGraph rs).targets u).toList ↔
      u ∈ c.selected.toList ∧ c.Relates rs u v := by
  simp only [Graph.mem_targets, h.get?_relationGraph, relates_iff, and_assoc, exists_and_left]

lemma WellKeyed.inner_relationGraph (h : c.WellKeyed) :
    (c.relationGraph rs).Inner u v ↔
      u ∈ c.selected.toList ∧ v ∈ c.selected.toList ∧ c.Relates rs u v := by
  rw [Graph.inner_iff, h.mem_targets_relationGraph, h.hasNode_relationGraph]
  tauto

/-! ## Added packages -/

lemma get?_insertIfNew (g : Graph) (k n : String) (ts : NameSet) :
    OrdMap.get? (g.insertIfNew k ts) n = (g.get? n).or (if n = k then some ts else none) := by
  unfold OrdMap.insertIfNew
  split
  · rename_i hk
    obtain ⟨w, hw⟩ := contains_iff_exists.1 hk
    split
    · rename_i hn
      rw [hn, hw, Option.some_or]
    · rw [Option.or_none]
  · rename_i hk
    have hnone : g.get? k = none := by simpa [OrdMap.contains] using hk
    rw [get?_insert]
    split
    · rename_i hn
      rw [hn, hnone, Option.none_or]
    · rw [Option.or_none]

/-- Nodes keep their targets; a name that is no node yet gets those of its package. -/
lemma get?_withPackages :
    OrdMap.get? (c.withPackages rs g names) n = (g.get? n).or
      (if n ∈ names.toList then (c.full.get? n).map (·.related rs) else none) := by
  unfold withPackages
  generalize names.toList = l
  induction l generalizing g with
  | nil => simp
  | cons k l ih =>
    rw [List.foldl_cons, ih]
    cases hk : c.full.get? k with
    | none =>
      by_cases hn : n = k
      · simp [hn, hk]
      · simp [hn]
    | some p =>
      simp only [get?_insertIfNew, Option.or_assoc]
      by_cases hn : n = k
      · simp [hn, hk]
      · simp [hn]

lemma mem_targets_withPackages :
    v ∈ (Graph.targets (c.withPackages rs g names) u).toList ↔
      v ∈ (g.targets u).toList ∨
        g.hasNode u = false ∧ u ∈ names.toList ∧ c.Relates rs u v := by
  rw [Graph.mem_targets, Graph.mem_targets, get?_withPackages, relates_iff, Graph.hasNode,
    OrdMap.contains]
  cases g.get? u with
  | some ts => simp
  | none =>
    by_cases hu : u ∈ names.toList
    · simp [hu]
    · simp [hu]

end Catalog

end AddonAtlas
