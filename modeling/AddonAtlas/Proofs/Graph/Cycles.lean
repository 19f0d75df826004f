import AddonAtlas.Proofs.Graph.Inner
import Mathlib.Data.Finset.Card
import Mathlib.Logic.Relation

/-!
Which edges peeling leaves: those that lie behind a cycle and before a cycle.

A set of nodes in which every node has an edge going out and one coming in survives each round,
so the nodes between cycles survive all of them. What is left in the end is such a set itself,
and in a finite one each node leads to a cycle and is led to by one.
-/

open Relation

namespace AddonAtlas.Graph

variable {g : Graph} {u v n : String}

/-- The node is on a cycle or is led to by one. -/
def AfterCycle (g : Graph) (n : String) : Prop :=
  ∃ w, TransGen g.Inner w w ∧ ReflTransGen g.Inner w n

/-- The node is on a cycle or leads to one. -/
def BeforeCycle (g : Graph) (n : String) : Prop :=
  ∃ w, ReflTransGen g.Inner n w ∧ TransGen g.Inner w w

/-! ## Edges as pairs -/

lemma mem_edges : (u, v) ∈ g.edges ↔ v ∈ (g.targets u).toList := by
  simp only [edges, List.mem_flatMap, List.mem_map, Prod.mk.injEq, mem_targets,
    OrdMap.get?_eq_some_iff]
  constructor
  · rintro ⟨⟨m, ts⟩, he, t, ht, rfl, rfl⟩
    exact ⟨ts, he, ht⟩
  · rintro ⟨ts, he, hv⟩
    exact ⟨(u, ts), he, v, hv, rfl, rfl⟩

/-- Pairs are distinct if their first parts come from distinct keys, and their second parts are
distinct under each key. -/
lemma nodup_pairs {α β γ : Type*} {l : List α} {key : α → β} {f : α → List γ}
    (hkey : (l.map key).Nodup) (hf : ∀ x ∈ l, (f x).Nodup) :
    (l.flatMap fun x => (f x).map fun y => (key x, y)).Nodup := by
  rw [List.nodup_flatMap]
  refine ⟨fun x hx => (hf x hx).map fun y z h => (Prod.mk.inj h).2, ?_⟩
  refine (List.pairwise_map.1 hkey).imp fun {x x'} hne => ?_
  rintro ⟨k, y⟩ hx hx'
  obtain ⟨y₁, -, h₁⟩ := List.mem_map.1 hx
  obtain ⟨y₂, -, h₂⟩ := List.mem_map.1 hx'
  exact hne ((Prod.mk.inj h₁).1.trans (Prod.mk.inj h₂).1.symm)

lemma nodup_edges (g : Graph) : g.edges.Nodup :=
  nodup_pairs (OrdSet.ofKeys g).nodup fun e _ => e.2.nodup

/-! ## One round -/

lemma inner_peel :
    g.peel.Inner u v ↔ g.peel.hasNode u = true ∧ g.peel.hasNode v = true ∧ g.Inner u v := by
  rw [inner_iff, mem_targets_peel]
  tauto

lemma nodes_peel_sublist (g : Graph) : g.peel.nodes.Sublist g.nodes := by
  have h : g.restrict.nodes = g.nodes := by
    simp [nodes, OrdMap.keys, restrict, OrdMap.mapValues]
  rw [← h]
  exact List.filter_sublist.map _

/-- Every node has an inner edge going out and one coming in, and there are no other edges. -/
structure Settled (g : Graph) : Prop where
  out : ∀ n, g.hasNode n = true → ∃ m, g.Inner n m
  into : ∀ n, g.hasNode n = true → ∃ m, g.Inner m n
  inner : ∀ u v, v ∈ (g.targets u).toList → g.Inner u v

/-- The stop test looks at the number of nodes only, but that is enough. -/
lemma settled_peel (h : g.size ≤ g.peel.size) : g.peel.Settled := by
  have hlen : g.nodes.length ≤ g.peel.nodes.length := by
    simpa [nodes, OrdMap.keys, OrdMap.size] using h
  have hsame : g.peel.nodes = g.nodes := (nodes_peel_sublist g).eq_of_length_le hlen
  have hkept : ∀ {m}, g.hasNode m = true → g.peel.hasNode m = true := fun hm => by
    rwa [← mem_nodes, hsame, mem_nodes]
  have hinner : ∀ {a b}, g.Inner a b → g.peel.Inner a b := fun hab =>
    inner_peel.2 ⟨hkept hab.source, hkept hab.target, hab⟩
  refine ⟨fun n hn => ?_, fun n hn => ?_, fun a b hb => hinner (mem_targets_peel.1 hb).2⟩
  · obtain ⟨m, hm⟩ := (hasNode_peel.1 hn).1
    exact ⟨m, hinner hm⟩
  · obtain ⟨m, hm⟩ := (hasNode_peel.1 hn).2
    exact ⟨m, hinner hm⟩

/-- A set of nodes in which every node has an edge going out and one coming in. -/
structure Thick (g : Graph) (P : String → Prop) : Prop where
  out : ∀ n, P n → ∃ m, P m ∧ g.Inner n m
  into : ∀ n, P n → ∃ m, P m ∧ g.Inner m n

variable {P : String → Prop}

lemma Thick.inner_peel (h : g.Thick P) (hu : P u) (hv : P v) (huv : g.Inner u v) :
    g.peel.Inner u v := by
  have hkept : ∀ {m}, P m → g.peel.hasNode m = true := fun hm => by
    obtain ⟨a, -, ha⟩ := h.out _ hm
    obtain ⟨b, -, hb⟩ := h.into _ hm
    exact hasNode_peel.2 ⟨⟨a, ha⟩, ⟨b, hb⟩⟩
  exact Graph.inner_peel.2 ⟨hkept hu, hkept hv, huv⟩

lemma Thick.peel (h : g.Thick P) : g.peel.Thick P := by
  constructor
  · intro n hn
    obtain ⟨m, hm, hnm⟩ := h.out n hn
    exact ⟨m, hm, h.inner_peel hn hm hnm⟩
  · intro n hn
    obtain ⟨m, hm, hmn⟩ := h.into n hn
    exact ⟨m, hm, h.inner_peel hm hn hmn⟩

/-! ## All rounds -/

lemma core_eq_iterate (g : Graph) : ∃ k ≤ g.size, g.core = peel^[k + 1] g := by
  fun_induction core g with
  | case1 g h ih =>
    obtain ⟨k, hk, hcore⟩ := ih
    exact ⟨k + 1, by omega, hcore⟩
  | case2 g h => exact ⟨0, Nat.zero_le _, rfl⟩

lemma settled_core (g : Graph) : g.core.Settled := by
  fun_induction core g with
  | case1 g h ih => exact ih
  | case2 g h => exact settled_peel (Nat.le_of_not_lt h)

lemma inner_core_le (g : Graph) : g.core.Inner ≤ g.Inner := by
  intro u v h
  fun_induction core g with
  | case1 g _ ih => exact (inner_peel.1 (ih h)).2.2
  | case2 g _ => exact (inner_peel.1 h).2.2

lemma Thick.inner_core (h : g.Thick P) (hu : P u) (hv : P v) (huv : g.Inner u v) :
    g.core.Inner u v := by
  fun_induction core g with
  | case1 g _ ih => exact ih h.peel (h.inner_peel hu hv huv)
  | case2 g _ => exact h.inner_peel hu hv huv

/-! ## Cycles -/

/-- Where every member of a finite list has a successor in it, every member leads to a cycle. -/
lemma exists_cycle_of_serial {α : Type*} {r : α → α → Prop} {l : List α}
    (h : ∀ x ∈ l, ∃ y ∈ l, r x y) {x : α} (hx : x ∈ l) :
    ∃ w, ReflTransGen r x w ∧ TransGen r w w := by
  classical
  -- the members that `x` leads to get fewer with each successor that does not lead back
  induction hk : (l.toFinset.filter fun y => ReflTransGen r x y).card using
    Nat.strong_induction_on generalizing x with
  | _ k ih =>
    obtain ⟨y, hy, hxy⟩ := h x hx
    by_cases hback : ReflTransGen r y x
    · exact ⟨x, .refl, .head' hxy hback⟩
    · have hfewer : (l.toFinset.filter fun z => ReflTransGen r y z).card < k := by
        rw [← hk]
        refine Finset.card_lt_card ⟨fun z hz => ?_, fun hsub => ?_⟩
        · rw [Finset.mem_filter] at hz ⊢
          exact ⟨hz.1, hz.2.head hxy⟩
        · have hmem := hsub (Finset.mem_filter.2 ⟨List.mem_toFinset.2 hx, ReflTransGen.refl⟩)
          exact hback (Finset.mem_filter.1 hmem).2
      obtain ⟨w, hyw, hw⟩ := ih _ hfewer hy rfl
      exact ⟨w, hyw.head hxy, hw⟩

lemma Settled.beforeCycle (h : g.Settled) (hn : g.hasNode n = true) : g.BeforeCycle n := by
  refine exists_cycle_of_serial (l := g.nodes) (fun x hx => ?_) (mem_nodes.2 hn)
  obtain ⟨m, hm⟩ := h.out x (mem_nodes.1 hx)
  exact ⟨m, mem_nodes.2 hm.target, hm⟩

lemma Settled.afterCycle (h : g.Settled) (hn : g.hasNode n = true) : g.AfterCycle n := by
  have hcycle : ∃ w, ReflTransGen (Function.swap g.Inner) n w ∧
      TransGen (Function.swap g.Inner) w w := by
    refine exists_cycle_of_serial (l := g.nodes) (fun x hx => ?_) (mem_nodes.2 hn)
    obtain ⟨m, hm⟩ := h.into x (mem_nodes.1 hx)
    exact ⟨m, mem_nodes.2 hm.source, hm⟩
  obtain ⟨w, hnw, hw⟩ := hcycle
  exact ⟨w, transGen_swap.1 hw, reflTransGen_swap.1 hnw⟩

lemma BeforeCycle.next (h : g.BeforeCycle n) : ∃ m, g.BeforeCycle m ∧ g.Inner n m := by
  obtain ⟨w, hnw, hw⟩ := h
  rcases hnw.cases_head with rfl | ⟨m, hnm, hmw⟩
  · obtain ⟨m, hnm, hmn⟩ := TransGen.head'_iff.1 hw
    exact ⟨m, ⟨n, hmn, hw⟩, hnm⟩
  · exact ⟨m, ⟨w, hmw, hw⟩, hnm⟩

lemma AfterCycle.prev (h : g.AfterCycle n) : ∃ m, g.AfterCycle m ∧ g.Inner m n := by
  obtain ⟨w, hw, hwn⟩ := h
  rcases hwn.cases_tail with rfl | ⟨m, hwm, hmn⟩
  · obtain ⟨m, hnm, hmn⟩ := TransGen.tail'_iff.1 hw
    exact ⟨m, ⟨n, hw, hnm⟩, hmn⟩
  · exact ⟨m, ⟨w, hw, hwm⟩, hmn⟩

lemma AfterCycle.step (h : g.AfterCycle u) (huv : g.Inner u v) : g.AfterCycle v := by
  obtain ⟨w, hw, hwu⟩ := h
  exact ⟨w, hw, hwu.tail huv⟩

lemma BeforeCycle.step (h : g.BeforeCycle v) (huv : g.Inner u v) : g.BeforeCycle u := by
  obtain ⟨w, hvw, hw⟩ := h
  exact ⟨w, hvw.head huv, hw⟩

lemma thick_between (g : Graph) : g.Thick fun n => g.AfterCycle n ∧ g.BeforeCycle n := by
  constructor
  · rintro n ⟨hafter, hbefore⟩
    obtain ⟨m, hm, hnm⟩ := hbefore.next
    exact ⟨m, ⟨hafter.step hnm, hm⟩, hnm⟩
  · rintro n ⟨hafter, hbefore⟩
    obtain ⟨m, hm, hmn⟩ := hafter.prev
    exact ⟨m, ⟨hm, hbefore.step hmn⟩, hmn⟩

lemma AfterCycle.of_core (h : g.core.AfterCycle n) : g.AfterCycle n := by
  obtain ⟨w, hw, hwn⟩ := h
  exact ⟨w, TransGen.mono (inner_core_le g) _ _ hw, ReflTransGen.mono (inner_core_le g) _ _ hwn⟩

lemma BeforeCycle.of_core (h : g.core.BeforeCycle n) : g.BeforeCycle n := by
  obtain ⟨w, hnw, hw⟩ := h
  exact ⟨w, ReflTransGen.mono (inner_core_le g) _ _ hnw, TransGen.mono (inner_core_le g) _ _ hw⟩

lemma mem_cycleEdges :
    (u, v) ∈ g.cycleEdges ↔ g.Inner u v ∧ g.AfterCycle u ∧ g.BeforeCycle v := by
  rw [cycleEdges, mem_edges]
  constructor
  · intro h
    have hc := settled_core g
    have huv := hc.inner u v h
    exact ⟨inner_core_le g u v huv, (hc.afterCycle huv.source).of_core,
      (hc.beforeCycle huv.target).of_core⟩
  · rintro ⟨huv, hu, hv⟩
    have hcore := (thick_between g).inner_core ⟨hu, hv.step huv⟩ ⟨hu.step huv, hv⟩ huv
    exact hcore.edge

/-- **What peeling reports.** After at most one round more than there are nodes, the edges that
are left are the inner edges from a node behind a cycle to a node before one, each once. So
every edge on a cycle is among them, and a graph without cycles has none. -/
theorem cycleEdges_between_cycles (g : Graph) :
    (∃ k ≤ g.size, g.core = peel^[k + 1] g) ∧
    g.cycleEdges.Nodup ∧
    (∀ u v, (u, v) ∈ g.cycleEdges ↔ g.Inner u v ∧ g.AfterCycle u ∧ g.BeforeCycle v) ∧
    (∀ u v, g.Inner u v → ReflTransGen g.Inner v u → (u, v) ∈ g.cycleEdges) ∧
    ((∀ n, ¬ TransGen g.Inner n n) → g.cycleEdges = []) := by
  refine ⟨core_eq_iterate g, nodup_edges g.core, fun u v => mem_cycleEdges, ?_, ?_⟩
  · intro u v huv hvu
    have hcycle : TransGen g.Inner u u := .head' huv hvu
    exact mem_cycleEdges.2 ⟨huv, ⟨u, hcycle, .refl⟩, ⟨u, hvu, hcycle⟩⟩
  · intro hacyclic
    rw [List.eq_nil_iff_forall_not_mem]
    rintro ⟨u, v⟩ he
    obtain ⟨-, ⟨w, hw, -⟩, -⟩ := mem_cycleEdges.1 he
    exact hacyclic w hw

/-- The edge from `a` to `c` is on no cycle, but between two of them. -/
example : cycleEdges (.ofList [("a", .ofList ["b", "c"]), ("b", .ofList ["a"]),
    ("c", .ofList ["d", "e"]), ("d", .ofList ["c"]), ("e", .empty)]) =
    [("a", "b"), ("a", "c"), ("b", "a"), ("c", "d"), ("d", "c")] := by cbv

end AddonAtlas.Graph
