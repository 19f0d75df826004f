import AddonAtlas.Proofs.Catalog.Declared
import AddonAtlas.Proofs.Catalog.ModuleGraph

/-!
The nodes of package views with full dependencies.

The packages that match are followed along the asked relations until nothing new comes in. After
that, packages that install themselves are added for what they declare alone, and nothing is
followed from them. So a view is saturated at each node that was followed, and at a late comer as
far as its declared dependencies go.
-/

open Relation

namespace AddonAtlas

/-- The nodes by their names, each with whether it was auto-included. -/
def GraphView.marks (v : GraphView) : List (String × Bool) :=
  v.nodes.map fun x => (x.name, x.autoIncluded)

namespace GraphOptions

variable {o : GraphOptions} {globs : GlobSet} {g : Graph} {u v n : String}

lemma node_of_visible (h : o.Visible globs g n) : g.hasNode n = true := by
  have hnode := hasNode_of_visible h
  rw [hasNode_shown] at hnode
  split at hnode
  · obtain ⟨m, hm | hm⟩ := hnode
    · exact hm.source
    · exact hm.target
  · exact hnode

/-- With full dependencies, what is visible is closed under inner edges. -/
lemma Visible.step (hfull : o.full = true) (h : o.Visible globs g u) (huv : g.Inner u v) :
    o.Visible globs g v := by
  refine .inr ⟨hfull, ?_⟩
  rcases h with h | ⟨-, s, hs, hsu⟩
  · exact ⟨u, h, .single huv⟩
  · exact ⟨s, hs, hsu.tail huv⟩

end GraphOptions

namespace Catalog

variable {c : Catalog} {o : ModuleGraphOptions} {globs : GlobSet} {view : GraphView}
  {u v n : String}

/-! ## Packages that install themselves -/

/-- A name that is added was not visible before, and is that of a candidate whose dependencies are
visible in the end. -/
lemma mem_expandAutoInstall_added (visible added : NameSet) (l : List Package)
    (h : n ∈ (expandAutoInstall visible added l).2.toList) :
    n ∈ added.toList ∨ n ∉ visible.toList ∧ ∃ p ∈ l, p.name = n ∧
      ∀ d ∈ p.depends.toList, d ∈ (expandAutoInstall visible added l).1.toList := by
  fun_induction expandAutoInstall visible added l with
  | case1 visible added l _ => exact .inl h
  | case2 visible added l _ names ih =>
    rcases ih h with hadded | ⟨hnew, p, hp, hname, hdepends⟩
    · rcases OrdSet.mem_insertMany.1 hadded with hbefore | hround
      · exact .inl hbefore
      · -- it came in with this round, when all its dependencies were visible
        obtain ⟨p, hp, rfl⟩ := List.mem_map.1 hround
        obtain ⟨hmem, hready⟩ := List.mem_filter.1 hp
        simp only [isReady, Bool.and_eq_true, Bool.not_eq_true', ← Bool.not_eq_true,
          OrdSet.contains_iff, OrdSet.isSubset, OrdSet.all, List.all_eq_true] at hready
        obtain ⟨new, hgrows, -⟩ := expandAutoInstall_grows (visible.insertMany names)
          (added.insertMany names) (waiting visible l)
        refine .inr ⟨hready.1, p, hmem, rfl, fun d hd => (hgrows d).2 (.inl ?_)⟩
        exact OrdSet.mem_insertMany.2 (.inl (hready.2 d hd))
    · refine .inr ⟨fun hn => hnew (OrdSet.mem_insertMany.2 (.inl hn)), p, ?_, hname, hdepends⟩
      exact (List.mem_filter.1 hp).1

lemma mem_shownNames_added (h : n ∈ (c.shownNames o globs).2.toList) :
    ¬ o.Visible globs (c.relationGraph o.relations) n ∧ ∃ p ∈ c.autoInstalled, p.name = n ∧
      ∀ d ∈ p.depends.toList, d ∈ (c.shownNames o globs).1.toList := by
  unfold shownNames at h ⊢
  cases hfull : o.full with
  | false =>
    simp only [hfull, Bool.false_eq_true, if_false] at h
    simp [OrdSet.empty] at h
  | true =>
    simp only [hfull, if_true] at h ⊢
    rcases mem_expandAutoInstall_added _ _ _ h with hempty | hnew
    · simp [OrdSet.empty] at hempty
    · rwa [GraphOptions.mem_visible] at hnew

/-! ## Marked nodes -/

lemma marks_moduleView (hglobs : GlobSet.parse o.pattern = .ok globs)
    (h : c.moduleView o = .ok view) :
    view.marks = (c.shownNames o globs).1.toList.map fun n =>
      (n, (c.shownNames o globs).2.contains n) := by
  rw [moduleView, GraphOptions.select_eq hglobs] at h
  simp only [bind, Except.bind] at h
  unfold shownNames GraphOptions.visible
  cases hfull : o.full with
  | true =>
    simp only [hfull, if_true] at h ⊢
    obtain rfl := Except.ok.inj h
    simp [GraphView.marks, GraphView.build, GraphView.nodeOf, Function.comp_def]
  | false =>
    simp only [hfull, Bool.false_eq_true, if_false] at h ⊢
    obtain rfl := Except.ok.inj h
    simp [GraphView.marks, GraphView.build, GraphView.nodeOf, Function.comp_def, OrdSet.contains,
      OrdSet.empty]

lemma marks_withMigration {version : String} {marked : GraphView}
    (h : c.withMigration version view = .ok marked) : marked.marks = view.marks := by
  obtain ⟨states, -, rfl⟩ := exists_states_of_withMigration h
  simp [GraphView.marks]

lemma marks_moduleGraph (h : c.moduleGraph o = .ok view) :
    ∃ globs, GlobSet.parse o.pattern = .ok globs ∧
      view.marks = (c.shownNames o globs).1.toList.map fun n =>
        (n, (c.shownNames o globs).2.contains n) := by
  obtain ⟨plain, hplain, hview⟩ := exists_plain_of_moduleGraph h
  obtain ⟨globs, hglobs, -⟩ := moduleView_ok hplain
  refine ⟨globs, hglobs, ?_⟩
  rw [← marks_moduleView hglobs hplain]
  obtain ⟨-, rfl⟩ | ⟨version, -, hmarked⟩ := hview
  · rfl
  · exact marks_withMigration hmarked

/-- The nodes that were not auto-included are the visible ones of the selected packages; the
others are those that came in by installing themselves. -/
lemma mem_marks (h : c.moduleGraph o = .ok view) :
    ∃ globs, GlobSet.parse o.pattern = .ok globs ∧
      (∀ n, (n, false) ∈ view.marks ↔ o.Visible globs (c.relationGraph o.relations) n) ∧
      (∀ n, (n, true) ∈ view.marks ↔ n ∈ (c.shownNames o globs).2.toList) ∧
      ∀ n, n ∈ view.names ↔ n ∈ (c.shownNames o globs).1.toList := by
  obtain ⟨globs, hglobs, hmarks⟩ := marks_moduleGraph h
  have hmem : ∀ n b, (n, b) ∈ view.marks ↔ n ∈ (c.shownNames o globs).1.toList ∧
      (c.shownNames o globs).2.contains n = b := by
    intro n b
    rw [hmarks, List.mem_map]
    constructor
    · rintro ⟨m, hm, heq⟩
      obtain ⟨rfl, rfl⟩ := Prod.mk.inj heq
      exact ⟨hm, rfl⟩
    · rintro ⟨hn, rfl⟩
      exact ⟨n, hn, rfl⟩
  have hnames : view.names = (c.shownNames o globs).1.toList := by
    have hfst : view.names = view.marks.map Prod.fst := by simp [GraphView.names, GraphView.marks]
    rw [hfst, hmarks]
    simp [Function.comp_def]
  refine ⟨globs, hglobs, fun n => ?_, fun n => ?_, fun n => by rw [hnames]⟩
  · rw [hmem, mem_shownNames, ← Bool.not_eq_true, OrdSet.contains_iff]
    constructor
    · rintro ⟨hvis | hadded, hnot⟩
      · exact hvis
      · exact absurd hadded hnot
    · exact fun hvis => ⟨.inl hvis, fun hadded => (mem_shownNames_added hadded).1 hvis⟩
  · rw [hmem, mem_shownNames, OrdSet.contains_iff]
    exact ⟨And.right, fun hadded => ⟨.inr hadded, hadded⟩⟩

lemma mem_marks_of_node {x : GraphNode} (hx : x ∈ view.nodes) :
    (x.name, x.autoIncluded) ∈ view.marks :=
  List.mem_map_of_mem (f := fun x : GraphNode => (x.name, x.autoIncluded)) hx

/-! ## Saturation -/

lemma WellKeyed.visible_of_relates (h : c.WellKeyed) (hfull : o.full = true)
    (hu : o.Visible globs (c.relationGraph o.relations) u) (hv : v ∈ c.selected.toList)
    (huv : c.Relates o.relations u v) : o.Visible globs (c.relationGraph o.relations) v := by
  have hsel : u ∈ c.selected.toList :=
    h.hasNode_relationGraph.1 (GraphOptions.node_of_visible hu)
  exact hu.step hfull (h.inner_relationGraph.2 ⟨hsel, hv, huv⟩)

lemma WellKeyed.saturated_followed (h : c.WellKeyed) (hfull : o.full = true)
    (hview : c.moduleGraph o = .ok view) (hu : (u, false) ∈ view.marks)
    (hv : v ∈ c.selected.toList) (huv : c.Relates o.relations u v) : v ∈ view.names := by
  obtain ⟨globs, -, hfollowed, -, hnames⟩ := mem_marks hview
  have hvis := h.visible_of_relates hfull ((hfollowed u).1 hu) hv huv
  exact (hnames v).2 (mem_shownNames.2 (.inl hvis))

lemma WellKeyed.declared_of_added (h : c.WellKeyed) (hview : c.moduleGraph o = .ok view)
    (hu : (u, true) ∈ view.marks) :
    ∃ p, c.full.get? u = some p ∧ p.autoInstall = true ∧
      ∀ d ∈ p.depends.toList, d ∈ view.names := by
  obtain ⟨globs, -, -, hadded, hnames⟩ := mem_marks hview
  obtain ⟨-, p, hp, rfl, hdepends⟩ := mem_shownNames_added ((hadded u).1 hu)
  obtain ⟨hvalue, hauto⟩ := List.mem_filter.1 hp
  obtain ⟨k, hk⟩ := OrdMap.mem_values_iff.1 hvalue
  obtain rfl := h.name hk
  exact ⟨p, hk, hauto, fun d hd => (hnames d).2 (hdepends d hd)⟩

/-- A relation is a declared dependency or one of the other relations that are asked for. -/
lemma relates_cases {rs : List Relation} (h : c.Relates rs u v) :
    c.Relates [.depends] u v ∨ c.Relates (rs.filter (· ≠ .depends)) u v := by
  obtain ⟨p, hp, r, hr, hv⟩ := h
  by_cases hd : r = .depends
  · subst hd
    exact .inl ⟨p, hp, .depends, List.mem_singleton_self _, hv⟩
  · exact .inr ⟨p, hp, r, List.mem_filter.2 ⟨hr, by simpa using hd⟩, hv⟩

lemma Relates.of_filter {rs : List Relation} {keep : Relation → Bool}
    (h : c.Relates (rs.filter keep) u v) : c.Relates rs u v := by
  obtain ⟨p, hp, r, hr, hv⟩ := h
  exact ⟨p, hp, r, (List.mem_filter.1 hr).1, hv⟩

/-- **Saturation of a package view.** With full dependencies, a node that was not auto-included has
all selected packages beside it that it relates to. An auto-included one is a package that installs
itself, and has all that it declares beside it. So the view is saturated just if it shows the
selected packages that auto-included ones import or refer to, where that is asked for. -/
theorem moduleGraph_saturated (l : List Package) (fs : List Filter) (o : ModuleGraphOptions)
    (view : GraphView) (hfull : o.full = true)
    (hview : ((ofPackages l).filters fs).moduleGraph o = .ok view) :
    (∀ x ∈ view.nodes, x.autoIncluded = false →
      ∀ v ∈ ((ofPackages l).filters fs).selected.toList,
        ((ofPackages l).filters fs).Relates o.relations x.name v → v ∈ view.names) ∧
    (∀ x ∈ view.nodes, x.autoIncluded = true → ∃ p, (ofPackages l).full.get? x.name = some p ∧
      p.autoInstall = true ∧ ∀ v ∈ p.depends.toList, v ∈ view.names) ∧
    ((∀ u ∈ view.names, ∀ v ∈ ((ofPackages l).filters fs).selected.toList,
        ((ofPackages l).filters fs).Relates o.relations u v → v ∈ view.names) ↔
      ∀ x ∈ view.nodes, x.autoIncluded = true →
        ∀ v ∈ ((ofPackages l).filters fs).selected.toList,
          ((ofPackages l).filters fs).Relates (o.relations.filter (· ≠ .depends)) x.name v →
          v ∈ view.names) := by
  have hkeyed := wellKeyed_filters_ofPackages l fs
  have hfollowed : ∀ x ∈ view.nodes, x.autoIncluded = false →
      ∀ v ∈ ((ofPackages l).filters fs).selected.toList,
        ((ofPackages l).filters fs).Relates o.relations x.name v → v ∈ view.names :=
    fun x hx hmark v hv hxv =>
      hkeyed.saturated_followed hfull hview (hmark ▸ mem_marks_of_node hx) hv hxv
  have hadded : ∀ x ∈ view.nodes, x.autoIncluded = true →
      ∃ p, (ofPackages l).full.get? x.name = some p ∧ p.autoInstall = true ∧
        ∀ v ∈ p.depends.toList, v ∈ view.names := fun x hx hmark => by
    have hdeclared := hkeyed.declared_of_added hview (hmark ▸ mem_marks_of_node hx)
    rwa [full_filters] at hdeclared
  refine ⟨hfollowed, hadded, fun hall x hx _ v hv hxv => ?_, fun hlate u hu v hv huv => ?_⟩
  · exact hall x.name (List.mem_map_of_mem hx) v hv hxv.of_filter
  · obtain ⟨x, hx, rfl⟩ := List.mem_map.1 hu
    cases hmark : x.autoIncluded with
    | false => exact hfollowed x hx hmark v hv huv
    | true =>
      rcases relates_cases huv with ⟨p, hp, r, hr, hvr⟩ | hother
      · -- what a late comer declares was visible when it came in
        obtain ⟨q, hq, -, hdepends⟩ := hadded x hx hmark
        rw [full_filters, hq] at hp
        obtain rfl := Option.some.inj hp
        obtain rfl := List.mem_singleton.1 hr
        exact hdepends v hvr
      · exact hlate x hx hmark v hv hother

/-! ### A late comer that imports -/

/-- Three packages, one of which installs itself and imports another one, and the time that reading
each took. -/
def lateImporter (t : Float) : List Package := [
  { path := ⟨"base"⟩, name := "base", durationSeconds := t },
  { path := ⟨"crm"⟩, name := "crm", depends := .ofList ["base"], imports := .ofList ["sale"],
    manifest := .ofList [("auto_install", .bool true)], durationSeconds := t },
  { path := ⟨"sale"⟩, name := "sale", durationSeconds := t }]

/-- What declared dependencies and imports have to show of `base`. -/
def lateOptions : ModuleGraphOptions :=
  { relations := [.depends, .imports], pattern := "base", full := true }

/-- What they do show of it. -/
def lateView : GraphView where
  nodes := [
    { name := "base", base := true },
    { name := "crm", base := false, autoIncluded := true }]
  edges := [⟨"crm", "base", false⟩]

lemma moduleGraph_lateImporter :
    ((ofPackages (lateImporter 0)).filters []).moduleGraph lateOptions = .ok lateView := by
  have hpattern : GlobSet.parse lateOptions.pattern = .ok ⟨[[.char 'b', .char 'a', .char 's',
      .char 'e']]⟩ :=
    GlobSet.parse_single (by decide +kernel)
  have hmatching : GraphOptions.matching ⟨[[.char 'b', .char 'a', .char 's', .char 'e']]⟩
      (lateOptions.shown (((ofPackages (lateImporter 0)).filters []).relationGraph
        lateOptions.relations)) = .singleton "base" :=
    OrdSet.ext_toList (by decide +kernel)
  rw [moduleGraph, moduleView, GraphOptions.select_eq hpattern, hmatching]
  generalize (0 : Float) = t
  cbv

theorem moduleGraph_saturated_lateImporter :
    ((ofPackages (lateImporter 0)).filters []).moduleGraph lateOptions = .ok lateView ∧
    lateOptions.full = true ∧
    ∃ p, (ofPackages (lateImporter 0)).full.get? "crm" = some p ∧ p.autoInstall = true ∧
      ∀ v ∈ p.depends.toList, v ∈ lateView.names := by
  have hview := moduleGraph_lateImporter
  have hnodes := (moduleGraph_saturated (lateImporter 0) [] lateOptions lateView rfl hview).2.1
  exact ⟨hview, rfl, hnodes _ (List.mem_cons_of_mem _ List.mem_cons_self) rfl⟩

/-- A view with full dependencies can lack a selected package that a node of it relates to. -/
theorem not_saturated_moduleGraph :
    ¬ ∀ (l : List Package) (fs : List Filter) (o : ModuleGraphOptions) (view : GraphView),
      o.full = true → ((ofPackages l).filters fs).moduleGraph o = .ok view →
      ∀ u ∈ view.names, ∀ v ∈ ((ofPackages l).filters fs).selected.toList,
        ((ofPackages l).filters fs).Relates o.relations u v → v ∈ view.names := by
  intro h
  have hcrm : ∃ p, (ofPackages (lateImporter 0)).full.get? "crm" = some p ∧
      "sale" ∈ p.imports.toList := ⟨_, by cbv, by decide⟩
  have hselected : ((ofPackages (lateImporter 0)).filters []).selected.toList =
      ["base", "crm", "sale"] := by cbv
  obtain ⟨p, hp, himports⟩ := hcrm
  have hsale := h _ [] lateOptions lateView rfl moduleGraph_lateImporter "crm" (by decide)
    "sale" (by rw [hselected]; decide) ⟨p, hp, .imports, by decide, himports⟩
  revert hsale
  decide

end Catalog

end AddonAtlas
