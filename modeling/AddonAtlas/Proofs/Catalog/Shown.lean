import AddonAtlas.Catalog.Graphs
import AddonAtlas.Proofs.Graph.Reach
import AddonAtlas.Proofs.Graph.Views
import AddonAtlas.Proofs.Text.Split
import Mathlib.Data.List.Permutation

/-!
What the options of a graph query leave visible, and the graphs of models and views.

Eliding, selecting, searching and building each read the targets of a node in their own way;
all of them follow inner edges only, so a view can be told from the inner edges of the graph it
is made of.
-/

open Relation

namespace AddonAtlas

/-! ## A star -/

namespace Glob

lemma nil_mem_ends (s : List UInt8) : [] ∈ ends s := by
  induction s with
  | nil => exact List.mem_singleton_self _
  | cons b r ih => exact List.mem_cons_of_mem _ ih

/-- Of the texts of one length, one is kept. -/
lemma exists_mem_distinct {l : List (List UInt8)} {s : List UInt8} (h : s ∈ l) :
    ∃ t ∈ distinct l, t.length = s.length := by
  induction l using List.reverseRecOn with
  | nil => cases h
  | append_singleton l a ih =>
    rw [distinct, List.foldl_concat, ← distinct]
    rcases List.mem_append.1 h with h | h
    · obtain ⟨t, ht, hlength⟩ := ih h
      split
      · exact ⟨t, ht, hlength⟩
      · exact ⟨t, List.mem_cons_of_mem _ ht, hlength⟩
    · obtain rfl := List.mem_singleton.1 h
      split
      · rename_i hany
        simpa using hany
      · exact ⟨s, List.mem_cons_self, rfl⟩

lemma accepts_anyRun (name : String) : accepts [.anyRun] name = true := by
  obtain ⟨t, ht, hlength⟩ := exists_mem_distinct (nil_mem_ends name.toUTF8.toList)
  obtain rfl := List.length_eq_zero_iff.1 hlength
  simpa [accepts, Token.rests] using ht

end Glob

/-- A star alone. -/
def GlobSet.star : GlobSet := ⟨[[.anyRun]]⟩

namespace GlobSet

/-- A text without commas and blank space around it is one pattern. -/
lemma parse_single {text : String} {ts : List Glob.Token} (h : ',' ∉ text.toList ∧
    Text.trim text.toList = text.toList ∧ text ≠ "" ∧ Glob.parse? text = some ts) :
    parse text = .ok ⟨[ts]⟩ := by
  obtain ⟨hcomma, htrim, hne, hpattern⟩ := h
  have hsplit : split text = [text] := by
    have hpieces : text.splitOn "," = [text] := Text.splitOn_of_not_mem hcomma
    rw [split, hpieces, List.map_singleton, htrim, String.ofList_toList]
    simp [hne]
  rw [parse, hsplit]
  simp [hpattern, pure, bind, Except.pure, Except.bind]

lemma parse_star : parse "*" = .ok star :=
  parse_single (by decide +kernel)

lemma accepts_star (name : String) : star.accepts name = true := by
  simp [star, accepts, Glob.accepts_anyRun]

end GlobSet

/-! ## What is visible -/

namespace GraphOptions

variable {o : GraphOptions} {globs : GlobSet} {g : Graph} {u v n : String}

/-- A node that matches the pattern. Where lonely nodes are skipped, it has to be linked. -/
def Asked (o : GraphOptions) (globs : GlobSet) (g : Graph) (n : String) : Prop :=
  globs.accepts n = true ∧ if o.skipLonely then g.Linked n else g.hasNode n = true

/-- A node that is asked for or, with full dependencies, is led to by one. -/
def Visible (o : GraphOptions) (globs : GlobSet) (g : Graph) (n : String) : Prop :=
  o.Asked globs g n ∨ o.full = true ∧ ∃ s, o.Asked globs g s ∧ ReflTransGen g.Inner s n

/-- **What a view has to show of a graph.** -/
structure Shows (o : GraphOptions) (globs : GlobSet) (g : Graph) (view : GraphView) : Prop where
  sorted : view.names.Pairwise (· < ·)
  nodes : ∀ n, n ∈ view.names ↔ o.Visible globs g n
  once : view.pairs.Nodup
  edges : ∀ u v, (u, v) ∈ view.pairs ↔
    g.Inner u v ∧ o.Visible globs g u ∧ o.Visible globs g v
  cycles : ∀ e ∈ view.edges, e.inCycle = true ↔ e.ends ∈ g.cycleEdges
  base : o.skipLonely = true → ∀ x ∈ view.nodes, x.base = true ↔ ∀ v, ¬ g.Inner x.name v

lemma hasNode_shown :
    (o.shown g).hasNode n = true ↔ if o.skipLonely then g.Linked n else g.hasNode n = true := by
  unfold shown
  split
  · exact Graph.hasNode_elideLonely
  · exact Iff.rfl

lemma inner_shown : (o.shown g).Inner = g.Inner := by
  unfold shown
  split
  · ext u v
    exact Graph.inner_elideLonely
  · rfl

/-- The matching nodes. -/
def matching (globs : GlobSet) (g : Graph) : NameSet := (OrdSet.ofKeys g).filter globs.accepts

lemma matching_star (g : Graph) : matching .star g = OrdSet.ofKeys g :=
  OrdSet.ext_mem fun n => by simp [matching, OrdSet.mem_filter, GlobSet.accepts_star]

/-- The visible nodes. -/
def visible (o : GraphOptions) (globs : GlobSet) (g : Graph) : NameSet :=
  let asked := matching globs (o.shown g)
  if o.full then (o.shown g).reachable asked.toList else asked

lemma select_eq (h : GlobSet.parse o.pattern = .ok globs) (g : Graph) :
    o.select g = .ok (matching globs g) := by
  rw [select, h]
  rfl

lemma view_eq (h : GlobSet.parse o.pattern = .ok globs) :
    o.view g = .ok (.build (o.shown g) (o.visible globs g) g.cycleEdges) := by
  rw [view, select_eq h]
  rfl

lemma mem_matching_shown : n ∈ (matching globs (o.shown g)).toList ↔ o.Asked globs g n := by
  rw [matching, OrdSet.mem_filter, OrdSet.mem_ofKeys, Asked, ← hasNode_shown, and_comm]
  rfl

lemma hasNode_of_asked (h : o.Asked globs g n) : (o.shown g).hasNode n = true :=
  hasNode_shown.2 h.2

lemma mem_visible : n ∈ (o.visible globs g).toList ↔ o.Visible globs g n := by
  unfold visible Visible
  cases hfull : o.full with
  | false => simp [mem_matching_shown]
  | true =>
    simp only [if_true, Graph.mem_reachable, inner_shown, mem_matching_shown, true_and]
    constructor
    · rintro (h | ⟨s, hs, -, hsn⟩)
      · exact .inl h
      · exact .inr ⟨s, hs, hsn⟩
    · rintro (h | ⟨s, hs, hsn⟩)
      · exact .inl h
      · exact .inr ⟨s, hs, hasNode_of_asked hs, hsn⟩

lemma hasNode_of_visible (h : o.Visible globs g n) : (o.shown g).hasNode n = true := by
  rcases h with h | ⟨-, s, hs, hsn⟩
  · exact hasNode_of_asked h
  · rw [← inner_shown (o := o)] at hsn
    exact Graph.hasNode_of_path hsn (hasNode_of_asked hs)

/-- A star leaves all nodes visible, unless lonely ones are skipped. -/
lemma visible_star (hskip : o.skipLonely = false) : o.Visible .star g n ↔ g.hasNode n = true := by
  have hshown : o.shown g = g := by simp [shown, hskip]
  constructor
  · intro h
    simpa [hshown] using hasNode_of_visible h
  · exact fun h => .inl ⟨GlobSet.accepts_star n, by simpa [hskip] using h⟩

lemma mem_pairs_view :
    (u, v) ∈ (GraphView.build (o.shown g) (o.visible globs g) g.cycleEdges).pairs ↔
      g.Inner u v ∧ o.Visible globs g u ∧ o.Visible globs g v := by
  rw [GraphView.mem_pairs_build, mem_visible, mem_visible, ← inner_shown (o := o),
    Graph.inner_iff]
  constructor
  · rintro ⟨hu, hv, huv⟩
    exact ⟨⟨huv, hasNode_of_visible hv⟩, hu, hv⟩
  · rintro ⟨⟨huv, -⟩, hu, hv⟩
    exact ⟨hu, hv, huv⟩

lemma base_iff (hskip : o.skipLonely = true) {x : GraphNode}
    (hx : x ∈ (GraphView.build (o.shown g) (o.visible globs g) g.cycleEdges).nodes) :
    x.base = true ↔ ∀ v, ¬ g.Inner x.name v := by
  have hname := List.mem_map_of_mem (f := GraphNode.name) hx
  rw [← GraphView.names, GraphView.names_build] at hname
  have hnode := hasNode_of_visible (mem_visible.1 hname)
  rw [GraphView.base_of_mem_build hx hnode]
  simp only [shown, hskip, if_true, Graph.mem_targets_elideLonely]

lemma view_shows (h : GlobSet.parse o.pattern = .ok globs) (g : Graph) :
    ∃ view, o.view g = .ok view ∧ o.Shows globs g view := by
  refine ⟨_, view_eq h, ?_, fun n => ?_, GraphView.nodup_pairs_build, fun u v => mem_pairs_view,
    fun e he => GraphView.inCycle_of_mem_build he, fun hskip x hx => base_iff hskip hx⟩
  · rw [GraphView.names_build]
    exact NameSet.sorted _
  · rw [GraphView.names_build, mem_visible]

end GraphOptions

namespace Catalog

/-- **The graphs of models and of views.** Both answer each well-formed query, and show exactly
the visible nodes and the inner edges between them. -/
theorem entityGraphs_show (c : Catalog) (om : ModelGraphOptions) (ov : ViewGraphOptions)
    {globsm globsv : GlobSet} (hm : GlobSet.parse om.pattern = .ok globsm)
    (hv : GlobSet.parse ov.pattern = .ok globsv) :
    (∃ view, c.modelGraph om = .ok view ∧ om.Shows globsm (c.modelLinks om) view) ∧
    ∃ view, c.viewGraph ov = .ok view ∧ ov.Shows globsv (c.viewLinks ov) view :=
  ⟨GraphOptions.view_shows hm _, GraphOptions.view_shows hv _⟩

/-- Users delegate to partners and extend a model that no package has. -/
def users : Model where
  name := some "res.users"
  inherit := .ofList ["mail.thread"]
  inherits := .ofList [("partner_id", "res.partner")]

/-- A package with users and partners, and the time that reading it took. -/
def partners (t : Float) : Catalog := .ofPackages [
  { path := ⟨"base"⟩, name := "base", durationSeconds := t,
    models := .ofList [("res.partner", { name := some "res.partner" }), ("res.users", users)],
    views := .ofList [("base.form", { name := "base.form", inherit := some "base.form" })] }]

lemma parse_plural : GlobSet.parse "*s" = .ok ⟨[[.anyRun, .char 's']]⟩ :=
  GlobSet.parse_single (by decide +kernel)

/-- Users lead to partners, and the model that no package has is not shown. -/
lemma modelGraph_partners :
    (partners 0).modelGraph { pattern := "*s", full := true } = .ok {
      nodes := [{ name := "res.partner", base := true }, { name := "res.users", base := false }]
      edges := [⟨"res.users", "res.partner", false⟩] } := by
  have hmatching : (GraphOptions.matching ⟨[[.anyRun, .char 's']]⟩ ((partners 0).modelLinks
      { pattern := "*s", full := true }).elideLonely).toList = ["res.users"] := by decide +kernel
  rw [modelGraph, GraphOptions.view_eq parse_plural]
  simp only [GraphOptions.visible, GraphOptions.shown, if_true, hmatching]
  generalize (0 : Float) = t
  cbv

lemma viewGraph_partners : (partners 0).viewGraph {} = .ok {
    nodes := [{ name := "base.form", base := false }]
    edges := [⟨"base.form", "base.form", true⟩] } := by
  rw [viewGraph, GraphOptions.view_eq GlobSet.parse_star]
  exact congrArg Except.ok (by decide +kernel)

theorem entityGraphs_show_partners :
    GlobSet.parse "*s" = .ok ⟨[[.anyRun, .char 's']]⟩ ∧
    GlobSet.parse "*" = .ok ⟨[[.anyRun]]⟩ ∧
    (∃ view, (partners 0).modelGraph { pattern := "*s", full := true } = .ok view ∧
      view.names = ["res.partner", "res.users"] ∧ view.pairs = [("res.users", "res.partner")] ∧
      GraphOptions.Shows { pattern := "*s", full := true } ⟨[[.anyRun, .char 's']]⟩
        ((partners 0).modelLinks { pattern := "*s", full := true }) view) ∧
    ∃ view, (partners 0).viewGraph {} = .ok view ∧
      view.edges = [⟨"base.form", "base.form", true⟩] ∧
      GraphOptions.Shows {} ⟨[[.anyRun]]⟩ ((partners 0).viewLinks {}) view := by
  obtain ⟨⟨models, hmodels, hshown⟩, views, hviews, hforms⟩ :=
    entityGraphs_show (partners 0) { pattern := "*s", full := true } {} parse_plural
      GlobSet.parse_star
  obtain rfl := Except.ok.inj (modelGraph_partners.symm.trans hmodels)
  obtain rfl := Except.ok.inj (viewGraph_partners.symm.trans hviews)
  exact ⟨parse_plural, GlobSet.parse_star, ⟨_, hmodels, rfl, rfl, hshown⟩, _, hviews, rfl, hforms⟩

end Catalog

end AddonAtlas
