import AddonAtlas.Proofs.Catalog.ModuleGraph

/-!
Marked cycles of package views.

Which edges are marked is settled on the graph of the selected packages, before packages that
install themselves come into the view from the full set. So a cycle through selected packages is
marked, and one that such a late comer closes is not.
-/

open Relation

namespace AddonAtlas

namespace GraphView

/-- An edge of the view leads from one name to another. -/
def Links (v : GraphView) (a b : String) : Prop := (a, b) ∈ v.pairs

/-- An edge on a cycle of edges of the view. -/
def OnCycle (v : GraphView) (e : GraphEdge) : Prop :=
  e ∈ v.edges ∧ ReflTransGen v.Links e.target e.source

lemma links_of_mem {v : GraphView} {e : GraphEdge} (h : e ∈ v.edges) :
    v.Links e.source e.target := List.mem_map_of_mem h

end GraphView

namespace Catalog

variable {c : Catalog} {o : ModuleGraphOptions} {view : GraphView} {e : GraphEdge} {u v : String}

/-- The marked edges are those that the graph of the selected packages has on cycles and between
them. -/
lemma inCycle_iff (h : c.moduleGraph o = .ok view) (he : e ∈ view.edges) :
    e.inCycle = true ↔ e.ends ∈ (c.relationGraph o.relations).cycleEdges := by
  obtain ⟨globs, -, -, hedges⟩ := moduleGraph_ok h
  rw [hedges] at he
  exact GraphView.inCycle_of_mem_build he

/-- An edge of the view between selected packages is an edge of their graph. -/
lemma WellKeyed.inner_of_links (hkeyed : c.WellKeyed) (h : c.moduleGraph o = .ok view)
    (huv : view.Links u v) (hu : u ∈ c.selected.toList) (hv : v ∈ c.selected.toList) :
    (c.relationGraph o.relations).Inner u v :=
  hkeyed.inner_relationGraph.2 ⟨hu, hv, ((hkeyed.mem_pairs h).1 huv).2.2.1⟩

/-- A cycle of the view through selected packages is one of their graph. -/
lemma WellKeyed.mem_cycleEdges_of_cycle (hkeyed : c.WellKeyed) (h : c.moduleGraph o = .ok view)
    (he : e ∈ view.edges) (hsource : e.source ∈ c.selected.toList)
    (hback : ReflTransGen (fun a b => view.Links a b ∧ a ∈ c.selected.toList) e.target e.source) :
    e.ends ∈ (c.relationGraph o.relations).cycleEdges := by
  have hpath : ∀ t, ReflTransGen (fun a b => view.Links a b ∧ a ∈ c.selected.toList) t e.source →
      ReflTransGen (c.relationGraph o.relations).Inner t e.source ∧ t ∈ c.selected.toList := by
    intro t ht
    induction ht using ReflTransGen.head_induction_on with
    | refl => exact ⟨.refl, hsource⟩
    | head hab _ ih => exact ⟨.head (hkeyed.inner_of_links h hab.1 hab.2 ih.2) ih.1, hab.2⟩
  obtain ⟨hinner, htarget⟩ := hpath e.target hback
  have hedge := hkeyed.inner_of_links h (GraphView.links_of_mem he) hsource htarget
  have hcycle : TransGen (c.relationGraph o.relations).Inner e.source e.source :=
    .head' hedge hinner
  exact Graph.mem_cycleEdges.2 ⟨hedge, ⟨e.source, hcycle, .refl⟩, ⟨e.source, hinner, hcycle⟩⟩

/-- **Marks of a package view.** The edges of a view that are marked are those between selected
packages that lie on cycles of such packages or between them. So each edge of a cycle through
selected packages is marked, and if none but selected packages are shown, then each edge that lies
on a cycle of the view. -/
theorem moduleGraph_inCycle (l : List Package) (fs : List Filter) (o : ModuleGraphOptions)
    (view : GraphView) (h : ((ofPackages l).filters fs).moduleGraph o = .ok view) :
    (∀ e ∈ view.edges, e.inCycle = true ↔
      e.ends ∈ (((ofPackages l).filters fs).relationGraph o.relations).cycleEdges) ∧
    (∀ e ∈ view.edges, e.source ∈ ((ofPackages l).filters fs).selected.toList →
      ReflTransGen
        (fun a b => view.Links a b ∧ a ∈ ((ofPackages l).filters fs).selected.toList)
        e.target e.source → e.inCycle = true) ∧
    ((∀ n ∈ view.names, n ∈ ((ofPackages l).filters fs).selected.toList) →
      ∀ e, view.OnCycle e → e.inCycle = true) := by
  have hkeyed := wellKeyed_filters_ofPackages l fs
  have hmarked : ∀ e ∈ view.edges, e.source ∈ ((ofPackages l).filters fs).selected.toList →
      ReflTransGen
        (fun a b => view.Links a b ∧ a ∈ ((ofPackages l).filters fs).selected.toList)
        e.target e.source → e.inCycle = true := fun e he hsource hback =>
    (inCycle_iff h he).2 (hkeyed.mem_cycleEdges_of_cycle h he hsource hback)
  refine ⟨fun e he => inCycle_iff h he, hmarked, fun hshown e hcycle => ?_⟩
  have hnamed {a b : String} (hab : view.Links a b) : a ∈ view.names :=
    ((hkeyed.mem_pairs h).1 hab).1
  refine hmarked e hcycle.1 (hshown _ (hnamed (GraphView.links_of_mem hcycle.1))) ?_
  exact ReflTransGen.mono (fun a b hab => ⟨hab, hshown a (hnamed hab)⟩) _ _ hcycle.2

/-! ### A cycle that is closed late -/

/-- Two packages that depend on each other, one of which installs itself, and the time that reading
each took. -/
def mutualPair (t : Float) : List Package := [
  { path := ⟨"a"⟩, name := "a", depends := .ofList ["b"], durationSeconds := t },
  { path := ⟨"b"⟩, name := "b", depends := .ofList ["a"],
    manifest := .ofList [("auto_install", .bool true)], durationSeconds := t }]

/-- What is shown of them, with one of them auto-included or not and the edges marked or not. -/
def mutualView (late marked : Bool) : GraphView where
  nodes := [
    { name := "a", base := false },
    { name := "b", base := false, autoIncluded := late }]
  edges := [⟨"a", "b", marked⟩, ⟨"b", "a", marked⟩]

lemma moduleGraph_mutualPair :
    ((ofPackages (mutualPair 0)).filters []).moduleGraph {} = .ok (mutualView false true) := by
  rw [moduleGraph, moduleView, GraphOptions.select_eq GlobSet.parse_star]
  exact congrArg Except.ok (by decide +kernel)

lemma filters_mutualPair : (ofPackages (mutualPair 0)).filters [.names "a"] =
    { ofPackages (mutualPair 0) with selected := .singleton "a" } := by
  have hpattern : GlobSet.parse "a" = .ok ⟨[[.char 'a']]⟩ :=
    GlobSet.parse_single (by decide +kernel)
  exact filters_names hpattern (by decide +kernel)

lemma moduleGraph_mutualPair_late :
    ((ofPackages (mutualPair 0)).filters [.names "a"]).moduleGraph
      { full := true, skipLonely := false } = .ok (mutualView true false) := by
  rw [filters_mutualPair, moduleGraph, moduleView, GraphOptions.select_eq GlobSet.parse_star,
    GraphOptions.matching_star]
  generalize (0 : Float) = t
  cbv

lemma onCycle_mutualView (late marked : Bool) :
    (mutualView late marked).OnCycle ⟨"a", "b", marked⟩ :=
  ⟨List.mem_cons_self, .single (List.mem_cons_of_mem _ List.mem_cons_self)⟩

theorem moduleGraph_inCycle_mutualPair :
    ((ofPackages (mutualPair 0)).filters []).moduleGraph {} = .ok (mutualView false true) ∧
    (∀ n ∈ (mutualView false true).names,
      n ∈ ((ofPackages (mutualPair 0)).filters []).selected.toList) ∧
    ∀ e, (mutualView false true).OnCycle e → e.inCycle = true := by
  have hview := moduleGraph_mutualPair
  have hselected : ((ofPackages (mutualPair 0)).filters []).selected.toList = ["a", "b"] := by cbv
  have hshown : ∀ n ∈ (mutualView false true).names,
      n ∈ ((ofPackages (mutualPair 0)).filters []).selected.toList := by
    rw [hselected]
    decide
  exact ⟨hview, hshown, (moduleGraph_inCycle _ _ _ _ hview).2.2 hshown⟩

/-- An edge on a cycle of a view can lack its mark. -/
theorem not_inCycle_of_onCycle :
    ¬ ∀ (l : List Package) (fs : List Filter) (o : ModuleGraphOptions) (view : GraphView),
      ((ofPackages l).filters fs).moduleGraph o = .ok view →
      ∀ e, view.OnCycle e → e.inCycle = true := by
  intro h
  have hmark := h _ _ _ _ moduleGraph_mutualPair_late _ (onCycle_mutualView true false)
  cases hmark

end Catalog

end AddonAtlas
