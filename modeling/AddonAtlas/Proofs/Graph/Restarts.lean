import AddonAtlas.Proofs.Graph.Reach
import Mathlib.Data.List.Nodup

/-!
Searches that start again and again.

A search from several names is one search after another. What an earlier one has met is not entered
again, and nothing is lost by that: when a search ends, what has been met is closed under inner
edges, so whatever lies behind a node that has been met has been met, too.
-/

open Relation

namespace AddonAtlas.Graph

variable {g : Graph} {search : List String → String → List String} {met start : List String}
  {s t n : String}

/-- A search from a name enters nothing that has been met, and finds what can be reached otherwise.
-/
def KeepsMet (g : Graph) (search : List String → String → List String) : Prop :=
  ∀ met s n, n ∈ search met s ↔ g.hasNode s = true ∧ s ∉ met ∧
    ReflTransGen (fun u v => g.Inner u v ∧ v ∉ met) s n

/-- Start at one name after another, and keep what has been met. -/
def inTurn (search : List String → String → List String) (met : List String) :
    List String → List String
  | [] => []
  | s :: start => search met s ++ inTurn search (met ++ search met s) start

/-- No inner edge leads out of some names. -/
def Closed (g : Graph) (met : List String) : Prop := ∀ u ∈ met, ∀ v, g.Inner u v → v ∈ met

lemma closed_nil (g : Graph) : g.Closed [] := fun _ hu => absurd hu List.not_mem_nil

/-- A search leaves a closed set behind it. -/
lemma Closed.append_search (h : g.Closed met) (hsearch : g.KeepsMet search) (s : String) :
    g.Closed (met ++ search met s) := by
  intro u hu v huv
  rw [List.mem_append] at hu ⊢
  rcases hu with hu | hu
  · exact .inl (h u hu v huv)
  · by_cases hv : v ∈ met
    · exact .inl hv
    · obtain ⟨hs, hnew, hsu⟩ := (hsearch met s u).1 hu
      exact .inr ((hsearch met s v).2 ⟨hs, hnew, hsu.tail ⟨huv, hv⟩⟩)

/-- Together with what has been met before, a search finds all that can be reached. -/
lemma Closed.mem_search (h : g.Closed met) (hsearch : g.KeepsMet search) :
    n ∈ met ++ search met s ↔ n ∈ met ∨ g.hasNode s = true ∧ ReflTransGen g.Inner s n := by
  rw [List.mem_append]
  constructor
  · rintro (hn | hn)
    · exact .inl hn
    · obtain ⟨hs, -, hsn⟩ := (hsearch met s n).1 hn
      exact .inr ⟨hs, ReflTransGen.mono (fun _ _ h => h.1) _ _ hsn⟩
  · rintro (hn | ⟨hs, hsn⟩)
    · exact .inl hn
    · have hstart : s ∈ met ++ search met s := by
        by_cases hold : s ∈ met
        · exact List.mem_append_left _ hold
        · exact List.mem_append_right _ ((hsearch met s s).2 ⟨hs, hold, .refl⟩)
      -- a path cannot leave a closed set
      have hclosed := h.append_search hsearch s
      rw [← List.mem_append]
      induction hsn with
      | refl => exact hstart
      | tail _ hmn ih => exact hclosed _ ih _ hmn

lemma Closed.mem_inTurn (h : g.Closed met) (hsearch : g.KeepsMet search) :
    n ∈ met ++ inTurn search met start ↔
      n ∈ met ∨ ∃ s ∈ start, g.hasNode s = true ∧ ReflTransGen g.Inner s n := by
  induction start generalizing met with
  | nil => simp [inTurn]
  | cons s start ih =>
    rw [inTurn, ← List.append_assoc, ih (h.append_search hsearch s), h.mem_search hsearch,
      List.exists_mem_cons_iff, or_assoc]

/-! ## The search of a graph -/

/-- What is pending later is searched among the nodes that are still to be met then. -/
lemma explore_append (g : Graph) (unmet first later : List String) :
    g.explore unmet (first ++ later) = g.explore unmet first ++
      g.explore (unmet.diff (g.explore unmet first)) later := by
  fun_induction explore g unmet first with
  | case1 unmet => rfl
  | case2 unmet a first ha ih =>
    rw [List.cons_append, explore, if_pos ha, ← List.append_assoc, ih, List.cons_append,
      List.diff_cons]
  | case3 unmet a first ha ih =>
    rw [List.cons_append, explore, if_neg ha, ih]

/-- The search from one name, among the nodes that have not been met. -/
def exploreFrom (g : Graph) (met : List String) (s : String) : List String :=
  g.explore (g.nodes.diff met) [s]

lemma keepsMet_exploreFrom (g : Graph) : g.KeepsMet g.exploreFrom := by
  intro met s n
  have hunmet (m : String) : m ∈ g.nodes.diff met ↔ g.hasNode m = true ∧ m ∉ met := by
    have hnodup : g.nodes.Nodup := OrdSet.nodup_keys g
    rw [hnodup.mem_sdiff_iff, mem_nodes]
  have hstep : g.StepIn (g.nodes.diff met) = fun u v => g.Inner u v ∧ v ∉ met := by
    ext u v
    rw [StepIn, hunmet, inner_iff, and_assoc]
  rw [exploreFrom, mem_explore, WalkIn, hstep]
  simp only [List.mem_singleton, exists_eq_left, hunmet, and_assoc]

/-- One search from several names is a search from each of them in turn. -/
lemma explore_eq_inTurn (g : Graph) (met start : List String) :
    g.explore (g.nodes.diff met) start = inTurn g.exploreFrom met start := by
  induction start generalizing met with
  | nil => simp [explore, inTurn]
  | cons s start ih =>
    rw [inTurn, ← ih, List.diff_append, ← List.singleton_append, explore_append]
    rfl

/-! ## What is found -/

lemma reachable_eq_inTurn (hsearch : g.KeepsMet search) (start : List String) :
    g.reachable start = .ofList (start ++ inTurn search [] start) := OrdSet.ext_mem fun n => by
  rw [mem_reachable, OrdSet.mem_ofList, List.mem_append, ← List.nil_append (inTurn search [] start),
    (closed_nil g).mem_inTurn hsearch]
  simp

lemma closure_eq_search (hsearch : g.KeepsMet search) (s : String) :
    g.closure s = (OrdSet.ofList (search [] s)).erase s := OrdSet.ext_mem fun n => by
  rw [mem_closure, OrdSet.mem_erase, OrdSet.mem_ofList, ← List.nil_append (search [] s),
    (closed_nil g).mem_search hsearch]
  simp [and_assoc]

lemma mem_closure_iff_path (hs : g.hasNode s = true) :
    n ∈ (g.closure s).toList ↔ n ≠ s ∧ TransGen g.Inner s n := by
  rw [mem_closure]
  constructor
  · rintro ⟨-, hsn, hne⟩
    exact ⟨hne, (reflTransGen_iff_eq_or_transGen.1 hsn).resolve_left hne⟩
  · rintro ⟨hne, hsn⟩
    exact ⟨hs, hsn.to_reflTransGen, hne⟩

lemma closure_of_unknown (hs : g.hasNode s = false) : g.closure s = .empty :=
  OrdSet.ext_mem fun n => by
    rw [mem_closure, hs]
    simp [OrdSet.empty]

lemma closure_subset (ht : t ∈ (g.closure s).toList) (hn : n ∈ (g.closure t).toList) :
    n = s ∨ n ∈ (g.closure s).toList := by
  obtain ⟨hs, hst, -⟩ := mem_closure.1 ht
  obtain ⟨-, htn, -⟩ := mem_closure.1 hn
  by_cases hns : n = s
  · exact .inl hns
  · exact .inr (mem_closure.2 ⟨hs, hst.trans htn, hns⟩)

/-- **What searches find.** From several names, in any order and with repetitions, the names
themselves and all that inner edges lead to from those among them that are nodes. This is what any
search finds that is started at one name after another and does not enter again what it has met; the
search of a graph is one of them. From a single node, all other nodes that it leads to, also if it
leads back to itself; from a name that is no node, nothing. So a node that is found from another one
leads to nothing further. -/
theorem searches_find (g : Graph) :
    (∀ start n, n ∈ (g.reachable start).toList ↔
      n ∈ start ∨ ∃ s ∈ start, g.hasNode s = true ∧ ReflTransGen g.Inner s n) ∧
    (∀ start start', (∀ s, s ∈ start ↔ s ∈ start') → g.reachable start = g.reachable start') ∧
    (∀ search, g.KeepsMet search →
      (∀ start, g.reachable start = .ofList (start ++ inTurn search [] start)) ∧
      ∀ s, g.closure s = (OrdSet.ofList (search [] s)).erase s) ∧
    g.KeepsMet g.exploreFrom ∧
    (∀ start, g.explore g.nodes start = inTurn g.exploreFrom [] start) ∧
    (∀ s, g.hasNode s = false → g.closure s = .empty) ∧
    (∀ s n, g.hasNode s = true → (n ∈ (g.closure s).toList ↔ n ≠ s ∧ TransGen g.Inner s n)) ∧
    ∀ s t, t ∈ (g.closure s).toList → ∀ n ∈ (g.closure t).toList,
      n = s ∨ n ∈ (g.closure s).toList := by
  refine ⟨fun start n => mem_reachable, fun start start' hsame => ?_, fun search hsearch =>
    ⟨fun start => reachable_eq_inTurn hsearch start, fun s => closure_eq_search hsearch s⟩,
    keepsMet_exploreFrom g, fun start => ?_, fun s => closure_of_unknown,
    fun s n => mem_closure_iff_path, fun s t ht n => closure_subset ht⟩
  · refine OrdSet.ext_mem fun n => ?_
    simp only [mem_reachable, hsame]
  · rw [← explore_eq_inTurn, List.diff_nil]

/-- From `a` the search comes back to `a`, and goes on to `c`; `d` is no node. -/
example : (closure (.ofList [("a", .ofList ["b"]), ("b", .ofList ["a", "c", "d"]), ("c", .empty)])
    "a").toList = ["b", "c"] := by cbv

end AddonAtlas.Graph
