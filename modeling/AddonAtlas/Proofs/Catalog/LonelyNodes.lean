import AddonAtlas.Proofs.Catalog.Shown

/-!
Answers with lonely nodes next to answers without them.

A lonely node is on no inner edge, so nothing is followed from it and no drawn edge meets it. Both
answers therefore draw the same edges, and nodes that one of them lacks stand apart in the other.
Only the mark of base nodes differs: where lonely nodes are skipped it asks for inner edges, and
where they are kept it asks for any target, be it a node or not.
-/

open Relation

namespace AddonAtlas

namespace GraphOptions

variable {o : GraphOptions} {globs : GlobSet} {g : Graph} {u v n : String}

/-- The same question without lonely nodes. -/
def skipping (o : GraphOptions) : GraphOptions := { o with skipLonely := true }

/-- The same question with lonely nodes. -/
def keeping (o : GraphOptions) : GraphOptions := { o with skipLonely := false }

/-- **How an answer with lonely nodes goes beyond one without them.** -/
structure AddsLonely (g : Graph) (thin whole : GraphView) : Prop where
  edges : whole.edges = thin.edges
  /-- A node stays as it is, but is a base node just if it has no targets at all. -/
  kept : ∀ x ∈ thin.nodes, { x with base := (g.targets x.name).isEmpty } ∈ whole.nodes
  /-- So it stays the same just if it has an inner edge or no targets at all. -/
  same : ∀ x ∈ thin.nodes,
    x ∈ whole.nodes ↔ (∃ v, g.Inner x.name v) ∨ (g.targets x.name).isEmpty = true
  added : ∀ y ∈ whole.nodes, y.name ∉ thin.names →
    ∀ e ∈ whole.edges, e.source ≠ y.name ∧ e.target ≠ y.name

/-! ## Visible names -/

lemma asked_skipping : o.skipping.Asked globs g n ↔ o.keeping.Asked globs g n ∧ g.Linked n := by
  simp only [Asked, skipping, keeping, if_true, Bool.false_eq_true, if_false]
  constructor
  · rintro ⟨hn, m, hm | hm⟩
    · exact ⟨⟨hn, hm.source⟩, m, .inl hm⟩
    · exact ⟨⟨hn, hm.target⟩, m, .inr hm⟩
  · rintro ⟨⟨hn, -⟩, hlinked⟩
    exact ⟨hn, hlinked⟩

lemma visible_skipping :
    o.skipping.Visible globs g n ↔ o.keeping.Visible globs g n ∧ g.Linked n := by
  unfold Visible
  simp only [asked_skipping]
  constructor
  · rintro (⟨hn, hlinked⟩ | ⟨hfull, s, ⟨hs, hlinked⟩, hsn⟩)
    · exact ⟨.inl hn, hlinked⟩
    · refine ⟨.inr ⟨hfull, s, hs, hsn⟩, ?_⟩
      rcases hsn.cases_tail with rfl | ⟨m, -, hmn⟩
      · exact hlinked
      · exact ⟨m, .inr hmn⟩
  · rintro ⟨hn | ⟨hfull, s, hs, hsn⟩, hlinked⟩
    · exact .inl ⟨hn, hlinked⟩
    · refine .inr ⟨hfull, s, ⟨hs, ?_⟩, hsn⟩
      rcases hsn.cases_head with rfl | ⟨m, hsm, -⟩
      · exact hlinked
      · exact ⟨m, .inl hsm⟩

lemma mem_visible_skipping :
    n ∈ (o.skipping.visible globs g).toList ↔
      n ∈ (o.keeping.visible globs g).toList ∧ g.Linked n := by
  rw [mem_visible, mem_visible, visible_skipping]

lemma hasNode_of_keeping (h : n ∈ (o.keeping.visible globs g).toList) : g.hasNode n = true :=
  hasNode_of_visible (o := o.keeping) (mem_visible.1 h)

/-! ## Edges -/

/-- Every name is drawn with the same edges in both answers. -/
lemma edgesOf_skipping (cycles : List Graph.Edge) (n : String) :
    GraphView.edgesOf g.elideLonely (o.skipping.visible globs g) cycles n =
      GraphView.edgesOf g (o.keeping.visible globs g) cycles n := by
  have htargets :
      (g.elideLonely.targets n).filter (o.skipping.visible globs g).contains =
        (g.targets n).filter (o.keeping.visible globs g).contains := OrdSet.ext_mem fun v => by
    simp only [OrdSet.mem_filter, OrdSet.contains_iff, Graph.mem_targets_elideLonely,
      Graph.inner_iff, mem_visible_skipping]
    constructor
    · rintro ⟨⟨hv, -⟩, hvis, -⟩
      exact ⟨hv, hvis⟩
    · rintro ⟨hv, hvis⟩
      have hnode := hasNode_of_keeping hvis
      exact ⟨⟨hv, hnode⟩, hvis, n, .inr (Graph.inner_iff.2 ⟨hv, hnode⟩)⟩
  unfold GraphView.edgesOf
  exact congrArg (fun ts : NameSet => ts.toList.map _) htargets

/-- A lonely node is drawn without edges. -/
lemma edgesOf_lonely (hn : ¬ g.Linked n) (cycles : List Graph.Edge) :
    GraphView.edgesOf g (o.keeping.visible globs g) cycles n = [] := by
  unfold GraphView.edgesOf
  rw [List.map_eq_nil_iff, List.filter_eq_nil_iff]
  intro v hv hvis
  have hnode := hasNode_of_keeping (OrdSet.contains_iff.1 hvis)
  exact hn ⟨v, .inl (Graph.inner_iff.2 ⟨hv, hnode⟩)⟩

/-- Where a function gives nothing for the elements that a filter drops, the filter does not
show. -/
lemma flatMap_filter_of_nil {α β : Type*} {p : α → Bool} {f : α → List β} {l : List α}
    (h : ∀ x ∈ l, p x = false → f x = []) : (l.filter p).flatMap f = l.flatMap f := by
  induction l with
  | nil => rfl
  | cons x l ih =>
    have ih := ih fun y hy => h y (List.mem_cons_of_mem _ hy)
    cases hp : p x with
    | true => simp [hp, ih]
    | false => simp [hp, ih, h x List.mem_cons_self hp]

lemma toList_skipping : (o.skipping.visible globs g).toList =
    (o.keeping.visible globs g).toList.filter (o.skipping.visible globs g).contains := by
  have hset : o.skipping.visible globs g =
      (o.keeping.visible globs g).filter (o.skipping.visible globs g).contains :=
    OrdSet.ext_mem fun n => by
      rw [OrdSet.mem_filter, OrdSet.contains_iff]
      exact ⟨fun hn => ⟨(mem_visible_skipping.1 hn).1, hn⟩, And.right⟩
  exact congrArg OrdSet.toList hset

lemma edges_skipping (cycles : List Graph.Edge) :
    (GraphView.build g (o.keeping.visible globs g) cycles).edges =
      (GraphView.build g.elideLonely (o.skipping.visible globs g) cycles).edges := by
  have hlonely : ∀ n ∈ (o.keeping.visible globs g).toList,
      (o.skipping.visible globs g).contains n = false →
      GraphView.edgesOf g (o.keeping.visible globs g) cycles n = [] := by
    intro n hn hskipped
    rw [← Bool.not_eq_true, OrdSet.contains_iff, mem_visible_skipping] at hskipped
    exact edgesOf_lonely (fun hlinked => hskipped ⟨hn, hlinked⟩) cycles
  have hsame : GraphView.edgesOf g.elideLonely (o.skipping.visible globs g) cycles =
      GraphView.edgesOf g (o.keeping.visible globs g) cycles :=
    funext fun n => edgesOf_skipping cycles n
  simp only [GraphView.build]
  rw [hsame, toList_skipping, flatMap_filter_of_nil hlonely]

/-! ## Nodes -/

lemma nodeOf_eq (h : g.hasNode n = true) :
    GraphView.nodeOf g n = { name := n, base := (g.targets n).isEmpty } := by
  obtain ⟨ts, hts⟩ := Graph.hasNode_iff.1 h
  rw [GraphView.nodeOf, hts, Graph.targets_eq hts, Option.any_some]

lemma isEmpty_targets_elideLonely :
    (g.elideLonely.targets n).isEmpty = true ↔ ¬ ∃ v, g.Inner n v := by
  rw [OrdSet.isEmpty_iff, List.eq_nil_iff_forall_not_mem, not_exists]
  simp only [Graph.mem_targets_elideLonely]

/-- The nodes of an answer are visible ones, and tell whether they have targets. -/
lemma mem_nodes_build {visible : NameSet} {cycles : List Graph.Edge} {x : GraphNode}
    (hvisible : ∀ n ∈ visible.toList, g.hasNode n = true) :
    x ∈ (GraphView.build g visible cycles).nodes ↔
      x.name ∈ visible.toList ∧ x = { name := x.name, base := (g.targets x.name).isEmpty } := by
  simp only [GraphView.build, List.mem_map]
  constructor
  · rintro ⟨n, hn, rfl⟩
    rw [nodeOf_eq (hvisible n hn)]
    exact ⟨hn, rfl⟩
  · rintro ⟨hn, hx⟩
    exact ⟨x.name, hn, (nodeOf_eq (hvisible _ hn)).trans hx.symm⟩

lemma mem_nodes_keeping {cycles : List Graph.Edge} {x : GraphNode} :
    x ∈ (GraphView.build g (o.keeping.visible globs g) cycles).nodes ↔
      x.name ∈ (o.keeping.visible globs g).toList ∧
        x = { name := x.name, base := (g.targets x.name).isEmpty } :=
  mem_nodes_build fun _ hn => hasNode_of_keeping hn

lemma mem_nodes_skipping {cycles : List Graph.Edge} {x : GraphNode} :
    x ∈ (GraphView.build g.elideLonely (o.skipping.visible globs g) cycles).nodes ↔
      x.name ∈ (o.skipping.visible globs g).toList ∧
        x = { name := x.name, base := (g.elideLonely.targets x.name).isEmpty } :=
  mem_nodes_build fun _ hn => Graph.hasNode_elideLonely.2 (mem_visible_skipping.1 hn).2

lemma addsLonely (cycles : List Graph.Edge) :
    AddsLonely g (.build g.elideLonely (o.skipping.visible globs g) cycles)
      (.build g (o.keeping.visible globs g) cycles) := by
  refine ⟨edges_skipping cycles, fun x hx => ?_, fun x hx => ?_, fun y hy hskipped e he => ?_⟩
  · obtain ⟨hn, hx⟩ := mem_nodes_skipping.1 hx
    rw [mem_nodes_keeping, hx]
    exact ⟨(mem_visible_skipping.1 hn).1, rfl⟩
  · obtain ⟨hn, hx⟩ := mem_nodes_skipping.1 hx
    have hbase : x.base = (g.elideLonely.targets x.name).isEmpty := congrArg GraphNode.base hx
    have hkept : x ∈ (GraphView.build g (o.keeping.visible globs g) cycles).nodes ↔
        x.base = (g.targets x.name).isEmpty := by
      rw [mem_nodes_keeping, and_iff_right (mem_visible_skipping.1 hn).1]
      refine ⟨congrArg GraphNode.base, fun hempty => ?_⟩
      rw [← hempty, hbase]
      exact hx
    rw [hkept, hbase]
    by_cases hinner : ∃ v, g.Inner x.name v
    · have hthin : (g.elideLonely.targets x.name).isEmpty = false := by
        rw [← Bool.not_eq_true, isEmpty_targets_elideLonely, not_not]
        exact hinner
      have hwhole : (g.targets x.name).isEmpty = false := by
        obtain ⟨v, hv⟩ := hinner
        rw [← Bool.not_eq_true, OrdSet.isEmpty_iff]
        exact List.ne_nil_of_mem hv.edge
      simp [hthin, hwhole, hinner]
    · have hthin := isEmpty_targets_elideLonely.2 hinner
      rw [hthin, or_iff_right hinner, eq_comm]
  · have hlonely : ¬ g.Linked y.name := fun hlinked => hskipped <| by
      rw [GraphView.names_build, mem_visible_skipping]
      exact ⟨(mem_nodes_keeping.1 hy).1, hlinked⟩
    obtain ⟨-, hvis, htarget⟩ := GraphView.mem_pairs_build.1 (List.mem_map_of_mem he)
    have hedge : g.Inner e.source e.target :=
      Graph.inner_iff.2 ⟨htarget, hasNode_of_keeping hvis⟩
    exact ⟨fun h => hlonely ⟨e.target, .inl (h ▸ hedge)⟩,
      fun h => hlonely ⟨e.source, .inr (h ▸ hedge)⟩⟩

/-- Both answers are given, and the one with lonely nodes goes beyond the other by those. -/
lemma view_addsLonely (h : GlobSet.parse o.pattern = .ok globs) (g : Graph) :
    ∃ thin whole, o.skipping.view g = .ok thin ∧ o.keeping.view g = .ok whole ∧
      AddsLonely g thin whole :=
  ⟨_, _, view_eq (o := o.skipping) h, view_eq (o := o.keeping) h, addsLonely g.cycleEdges⟩

end GraphOptions

namespace Catalog

open GraphOptions

/-- **Lonely nodes in the graphs of models and of views.** Each well-formed query is answered with
lonely nodes and without them. Both answers have the same edges with the same marks. The nodes that
only the first one shows are on no edge of it. The others are the same in both, a node apart that
has targets none of which is a node: without lonely nodes it is a base node, with them it is not. -/
theorem entityGraphs_lonely (c : Catalog) (om : ModelGraphOptions) (ov : ViewGraphOptions)
    {globsm globsv : GlobSet} (hm : GlobSet.parse om.pattern = .ok globsm)
    (hv : GlobSet.parse ov.pattern = .ok globsv) :
    (∃ thin whole, c.modelGraph { om with skipLonely := true } = .ok thin ∧
      c.modelGraph { om with skipLonely := false } = .ok whole ∧
      AddsLonely (c.modelLinks om) thin whole) ∧
    ∃ thin whole, c.viewGraph { ov with skipLonely := true } = .ok thin ∧
      c.viewGraph { ov with skipLonely := false } = .ok whole ∧
      AddsLonely (c.viewLinks ov) thin whole :=
  ⟨view_addsLonely hm _, view_addsLonely hv _⟩

/-! ### A base node in one answer alone -/

/-- Partners extend a model that no package has, and users delegate to partners; with the time that
reading them took. -/
def contacts (t : Float) : Catalog := .ofPackages [
  { path := ⟨"base"⟩, name := "base", durationSeconds := t,
    models := .ofList [
      ("res.partner", { name := some "res.partner", inherit := .ofList ["mail.thread"] }),
      ("res.users",
        { name := some "res.users", inherits := .ofList [("partner_id", "res.partner")] })] }]

/-- What is shown of them, with partners as a base node or not. -/
def contactsView (base : Bool) : GraphView where
  nodes := [{ name := "res.partner", base }, { name := "res.users", base := false }]
  edges := [⟨"res.users", "res.partner", false⟩]

lemma modelGraph_contacts (skipLonely : Bool) :
    (contacts 0).modelGraph { skipLonely } = .ok (contactsView skipLonely) := by
  rw [modelGraph, GraphOptions.view_eq GlobSet.parse_star]
  cases skipLonely with
  | true => exact congrArg Except.ok (by decide +kernel)
  | false => exact congrArg Except.ok (by decide +kernel)

theorem entityGraphs_lonely_contacts :
    GlobSet.parse "*" = .ok ⟨[[.anyRun]]⟩ ∧
    (∃ thin whole, (contacts 0).modelGraph { skipLonely := true } = .ok thin ∧
      (contacts 0).modelGraph { skipLonely := false } = .ok whole ∧
      AddsLonely ((contacts 0).modelLinks {}) thin whole) ∧
    ∃ thin whole, (contacts 0).viewGraph { skipLonely := true } = .ok thin ∧
      (contacts 0).viewGraph { skipLonely := false } = .ok whole ∧
      AddsLonely ((contacts 0).viewLinks {}) thin whole :=
  ⟨GlobSet.parse_star,
    entityGraphs_lonely (contacts 0) {} {} GlobSet.parse_star GlobSet.parse_star⟩

/-- A node can change when lonely nodes are shown beside it. -/
theorem not_nodes_subset_of_lonely :
    ¬ ∀ (c : Catalog) (o : ModelGraphOptions) (thin whole : GraphView),
      c.modelGraph { o with skipLonely := true } = .ok thin →
      c.modelGraph { o with skipLonely := false } = .ok whole →
      ∀ x ∈ thin.nodes, x ∈ whole.nodes := by
  intro h
  have hpartner := h _ {} _ _ (modelGraph_contacts true) (modelGraph_contacts false)
    { name := "res.partner", base := true } (by decide)
  revert hpartner
  decide

end Catalog

end AddonAtlas
