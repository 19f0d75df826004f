import AddonAtlas.Graph.Reach
import AddonAtlas.Proofs.Graph.Inner
import Mathlib.Logic.Relation

/-!
The search for reachable nodes finds exactly what paths of inner edges lead to.

The search takes each node it meets out of those it has still to meet. Its invariant speaks of
walks that stay among those.
-/

open Relation

namespace AddonAtlas.Graph

variable {g : Graph} {l pending start : List String} {a s n : String}

/-- A step to a node that is still to be met. -/
def StepIn (g : Graph) (l : List String) (u v : String) : Prop :=
  v ∈ (g.targets u).toList ∧ v ∈ l

/-- A walk from a pending name, all of it among the nodes that are still to be met. -/
def WalkIn (g : Graph) (l pending : List String) (n : String) : Prop :=
  ∃ s ∈ pending, s ∈ l ∧ ReflTransGen (g.StepIn l) s n

lemma WalkIn.tail {m : String} (h : g.WalkIn l pending m) (hmn : g.StepIn l m n) :
    g.WalkIn l pending n := by
  obtain ⟨s, hs, hsl, hsm⟩ := h
  exact ⟨s, hs, hsl, hsm.tail hmn⟩

/-- A walk through the other nodes is a walk, if its start is pending or a target of `a`. -/
lemma WalkIn.of_erase (ha : a ∈ l)
    (h : g.WalkIn (l.erase a) ((g.targets a).toList ++ pending) n) :
    g.WalkIn l (a :: pending) n := by
  obtain ⟨s, hs, hsl, hsn⟩ := h
  have hlift : ReflTransGen (g.StepIn l) s n :=
    ReflTransGen.mono (fun _ _ h => ⟨h.1, List.mem_of_mem_erase h.2⟩) _ _ hsn
  have hsl := List.mem_of_mem_erase hsl
  rcases List.mem_append.1 hs with hs | hs
  · exact ⟨a, List.mem_cons_self, ha, hlift.head ⟨hs, hsl⟩⟩
  · exact ⟨s, List.mem_cons_of_mem _ hs, hsl, hlift⟩

/-- A walk to another node than `a` can be had without `a`: what follows the last visit to it
starts at one of its targets. -/
lemma WalkIn.erase (h : g.WalkIn l (a :: pending) n) (hne : n ≠ a) :
    g.WalkIn (l.erase a) ((g.targets a).toList ++ pending) n := by
  obtain ⟨s, hs, hsl, hsn⟩ := h
  induction hsn with
  | refl =>
    have hs : s ∈ pending := (List.mem_cons.1 hs).resolve_left hne
    exact ⟨s, List.mem_append_right _ hs, (List.mem_erase_of_ne hne).2 hsl, .refl⟩
  | @tail m n _ hmn ih =>
    have hnl : n ∈ l.erase a := (List.mem_erase_of_ne hne).2 hmn.2
    by_cases hm : m = a
    · subst hm
      exact ⟨n, List.mem_append_left _ hmn.1, hnl, .refl⟩
    · exact (ih hm).tail ⟨hmn.1, hnl⟩

/-- **The search is exact.** -/
lemma mem_explore : n ∈ g.explore l pending ↔ g.WalkIn l pending n := by
  fun_induction explore g l pending with
  | case1 l => simp [WalkIn]
  | case2 l a pending ha ih =>
    rw [List.mem_cons, ih]
    constructor
    · rintro (rfl | h)
      · exact ⟨n, List.mem_cons_self, ha, .refl⟩
      · exact h.of_erase ha
    · intro h
      by_cases hne : n = a
      · exact .inl hne
      · exact .inr (h.erase hne)
  | case3 l a pending ha ih =>
    rw [ih]
    constructor
    · rintro ⟨s, hs, h⟩
      exact ⟨s, List.mem_cons_of_mem _ hs, h⟩
    · rintro ⟨s, hs, hsl, h⟩
      have hs : s ∈ pending := (List.mem_cons.1 hs).resolve_left fun h => ha (h ▸ hsl)
      exact ⟨s, hs, hsl, h⟩

/-- Among all nodes, a step is an inner edge. -/
lemma stepIn_nodes : g.StepIn g.nodes = g.Inner := by
  ext u v
  rw [StepIn, mem_nodes, inner_iff]

lemma mem_explore_nodes :
    n ∈ g.explore g.nodes start ↔
      ∃ s ∈ start, g.hasNode s = true ∧ ReflTransGen g.Inner s n := by
  simp only [mem_explore, WalkIn, stepIn_nodes, mem_nodes]

lemma mem_reachable :
    n ∈ (g.reachable start).toList ↔
      n ∈ start ∨ ∃ s ∈ start, g.hasNode s = true ∧ ReflTransGen g.Inner s n := by
  rw [reachable, OrdSet.mem_ofList, List.mem_append, mem_explore_nodes]

lemma mem_closure :
    n ∈ (g.closure s).toList ↔ g.hasNode s = true ∧ ReflTransGen g.Inner s n ∧ n ≠ s := by
  simp [closure, mem_explore_nodes, and_assoc]

lemma hasNode_of_path (h : ReflTransGen g.Inner s n) (hs : g.hasNode s = true) :
    g.hasNode n = true := by
  rcases h.cases_tail with rfl | ⟨m, -, hmn⟩
  · exact hs
  · exact hmn.target

end AddonAtlas.Graph
