import AddonAtlas.Proofs.Catalog.Filters
import AddonAtlas.Proofs.Catalog.Relations
import AddonAtlas.Proofs.Catalog.Shown

/-!
The edges of package views.

A package that installs itself comes into a view from the full set, after the lonely nodes of the
selected packages were elided. Eliding has restricted the targets of the linked packages to
selected ones by then, so an edge to the late comer is lost if a filter had dropped it. No other
edge between visible packages is lost.
-/

namespace AddonAtlas.Catalog

variable {c : Catalog} {o : ModuleGraphOptions} {globs : GlobSet} {view : GraphView}
  {u v n : String}

/-! ## Names -/

lemma expandAutoInstall_grows (visible added : NameSet) (l : List Package) :
    ∃ new : List String,
      (∀ n, n ∈ (expandAutoInstall visible added l).1.toList ↔ n ∈ visible.toList ∨ n ∈ new) ∧
      ∀ n, n ∈ (expandAutoInstall visible added l).2.toList ↔ n ∈ added.toList ∨ n ∈ new := by
  fun_induction expandAutoInstall visible added l with
  | case1 visible added l _ => exact ⟨[], by simp, by simp⟩
  | case2 visible added l _ names ih =>
    obtain ⟨new, hvis, hadd⟩ := ih
    refine ⟨names ++ new, fun n => ?_, fun n => ?_⟩
    · rw [hvis, OrdSet.mem_insertMany, List.mem_append, or_assoc]
    · rw [hadd, OrdSet.mem_insertMany, List.mem_append, or_assoc]

lemma mem_expandAutoInstall (visible : NameSet) (l : List Package) :
    n ∈ (expandAutoInstall visible .empty l).1.toList ↔
      n ∈ visible.toList ∨ n ∈ (expandAutoInstall visible .empty l).2.toList := by
  obtain ⟨new, hvis, hadd⟩ := expandAutoInstall_grows visible .empty l
  rw [hvis, hadd]
  simp [OrdSet.empty]

/-- The names that a package view shows, and those of them that came in by installing
themselves. -/
def shownNames (c : Catalog) (o : ModuleGraphOptions) (globs : GlobSet) : NameSet × NameSet :=
  let visible := o.visible globs (c.relationGraph o.relations)
  if o.full then expandAutoInstall visible .empty c.autoInstalled else (visible, .empty)

lemma mem_shownNames :
    n ∈ (c.shownNames o globs).1.toList ↔
      o.Visible globs (c.relationGraph o.relations) n ∨
        n ∈ (c.shownNames o globs).2.toList := by
  unfold shownNames
  cases o.full with
  | true => simp only [if_true, mem_expandAutoInstall, GraphOptions.mem_visible]
  | false => simp [GraphOptions.mem_visible, OrdSet.empty]

/-- The graph that a package view is built from. -/
def shownGraph (c : Catalog) (o : ModuleGraphOptions) (globs : GlobSet) : Graph :=
  c.withPackages o.relations (o.shown (c.relationGraph o.relations)) (c.shownNames o globs).2

/-- The view before auto-included nodes and migration states are marked. -/
def plainView (c : Catalog) (o : ModuleGraphOptions) (globs : GlobSet) : GraphView :=
  .build (c.shownGraph o globs) (c.shownNames o globs).1 (c.relationGraph o.relations).cycleEdges

/-! ## What marking leaves alone -/

lemma moduleView_ok (h : c.moduleView o = .ok view) :
    ∃ globs, GlobSet.parse o.pattern = .ok globs ∧
      view.names = (c.plainView o globs).names ∧ view.edges = (c.plainView o globs).edges := by
  cases hg : GlobSet.parse o.pattern with
  | error e =>
    have hselect : o.select (o.shown (c.relationGraph o.relations)) = .error e := by
      rw [GraphOptions.select, hg]
      rfl
    rw [moduleView, hselect] at h
    cases h
  | ok globs =>
    refine ⟨globs, rfl, ?_⟩
    rw [moduleView, GraphOptions.select_eq hg] at h
    simp only [bind, Except.bind] at h
    unfold plainView shownGraph shownNames GraphOptions.visible
    cases hfull : o.full with
    | true =>
      simp only [hfull, if_true] at h ⊢
      obtain rfl := Except.ok.inj h
      exact ⟨by simp [GraphView.names], rfl⟩
    | false =>
      simp only [hfull, Bool.false_eq_true, if_false] at h ⊢
      obtain rfl := Except.ok.inj h
      exact ⟨rfl, rfl⟩

/-- Marking gives each node a state and changes nothing else. -/
lemma exists_states_of_withMigration {version : String} {marked : GraphView}
    (h : c.withMigration version view = .ok marked) :
    ∃ states, c.migrationStates version = .ok states ∧ marked = { view with
      nodes := view.nodes.map fun n =>
        { n with migration := some (states.getD n.name .notMigrated) } } := by
  unfold withMigration at h
  cases hs : c.migrationStates version with
  | error e => simp [hs, bind, Except.bind] at h
  | ok states =>
    rw [hs] at h
    exact ⟨states, rfl, (Except.ok.inj h).symm⟩

/-- A graph of packages is their view, marked with states where these are asked for. -/
lemma exists_plain_of_moduleGraph (h : c.moduleGraph o = .ok view) :
    ∃ plain, c.moduleView o = .ok plain ∧ (o.migration = none ∧ view = plain ∨
      ∃ version, o.migration = some version ∧ c.withMigration version plain = .ok view) := by
  unfold moduleGraph at h
  cases hplain : c.moduleView o with
  | error e => simp [hplain, bind, Except.bind] at h
  | ok plain =>
    rw [hplain] at h
    refine ⟨plain, rfl, ?_⟩
    cases hm : o.migration with
    | none =>
      simp only [hm, bind, Except.bind] at h
      exact .inl ⟨rfl, (Except.ok.inj h).symm⟩
    | some version =>
      simp only [hm, bind, Except.bind] at h
      exact .inr ⟨version, rfl, h⟩

lemma withMigration_ok {version : String} {marked : GraphView}
    (h : c.withMigration version view = .ok marked) :
    marked.names = view.names ∧ marked.edges = view.edges := by
  obtain ⟨states, -, rfl⟩ := exists_states_of_withMigration h
  exact ⟨by simp [GraphView.names], rfl⟩

lemma moduleGraph_ok (h : c.moduleGraph o = .ok view) :
    ∃ globs, GlobSet.parse o.pattern = .ok globs ∧
      view.names = (c.plainView o globs).names ∧ view.edges = (c.plainView o globs).edges := by
  obtain ⟨plain, hplain, hview⟩ := exists_plain_of_moduleGraph h
  obtain ⟨globs, hglobs, hnames, hedges⟩ := moduleView_ok hplain
  refine ⟨globs, hglobs, ?_⟩
  obtain ⟨-, rfl⟩ | ⟨version, -, hmarked⟩ := hview
  · exact ⟨hnames, hedges⟩
  · obtain ⟨hnames', hedges'⟩ := withMigration_ok hmarked
    exact ⟨hnames'.trans hnames, hedges'.trans hedges⟩

/-! ## Which queries are answered -/

lemma exists_moduleView :
    (∃ view, c.moduleView o = .ok view) ↔ ∃ globs, GlobSet.parse o.pattern = .ok globs := by
  constructor
  · rintro ⟨view, h⟩
    obtain ⟨globs, hglobs, -⟩ := moduleView_ok h
    exact ⟨globs, hglobs⟩
  · rintro ⟨globs, hglobs⟩
    rw [moduleView, GraphOptions.select_eq hglobs]
    cases hfull : o.full with
    | true => exact ⟨_, rfl⟩
    | false => exact ⟨_, rfl⟩

lemma exists_withMigration {version : String} :
    (∃ marked, c.withMigration version view = .ok marked) ↔
      ∃ globs, GlobSet.parse version = .ok globs := by
  unfold withMigration migrationStates
  cases hglobs : GlobSet.parse version with
  | error e => simp [bind, Except.bind]
  | ok globs => exact iff_of_true ⟨_, rfl⟩ ⟨globs, rfl⟩

lemma exists_moduleGraph :
    (∃ view, c.moduleGraph o = .ok view) ↔ (∃ globs, GlobSet.parse o.pattern = .ok globs) ∧
      ∀ version ∈ o.migration, ∃ globs, GlobSet.parse version = .ok globs := by
  rw [← exists_moduleView (c := c)]
  unfold moduleGraph
  cases hview : c.moduleView o with
  | error e => simp [bind, Except.bind]
  | ok plain =>
    cases hm : o.migration with
    | none => exact iff_of_true ⟨plain, rfl⟩ ⟨⟨plain, rfl⟩, by simp⟩
    | some version =>
      have hmarked : (∃ marked, c.withMigration version plain = .ok marked) ↔
          ∃ globs, GlobSet.parse version = .ok globs := exists_withMigration
      simpa [bind, Except.bind] using hmarked

/-! ## Edges -/

/-- An edge to a package that was filtered out, from a selected one with relations to or from
selected packages. Where lonely nodes are skipped, such an edge is cut off. -/
def CutOff (c : Catalog) (o : ModuleGraphOptions) (u v : String) : Prop :=
  o.skipLonely = true ∧ v ∉ c.selected.toList ∧ u ∈ c.selected.toList ∧
    ∃ m ∈ c.selected.toList, c.Relates o.relations u m ∨ c.Relates o.relations m u

lemma WellKeyed.linked_relationGraph (h : c.WellKeyed) :
    (c.relationGraph o.relations).Linked u ↔ u ∈ c.selected.toList ∧
      ∃ m ∈ c.selected.toList, c.Relates o.relations u m ∨ c.Relates o.relations m u := by
  simp only [Graph.Linked, h.inner_relationGraph]
  constructor
  · rintro ⟨m, ⟨hu, hm, hum⟩ | ⟨hm, hu, hmu⟩⟩
    · exact ⟨hu, m, hm, .inl hum⟩
    · exact ⟨hu, m, hm, .inr hmu⟩
  · rintro ⟨hu, m, hm, hum | hmu⟩
    · exact ⟨m, .inl ⟨hu, hm, hum⟩⟩
    · exact ⟨m, .inr ⟨hm, hu, hmu⟩⟩

lemma WellKeyed.cutOff_iff (h : c.WellKeyed) :
    c.CutOff o u v ↔ o.skipLonely = true ∧ v ∉ c.selected.toList ∧
      (c.relationGraph o.relations).Linked u := by
  rw [h.linked_relationGraph]
  rfl

/-- A node of the elided graph keeps its relations to selected packages. -/
lemma WellKeyed.mem_targets_shown (h : c.WellKeyed)
    (hu : (o.shown (c.relationGraph o.relations)).hasNode u = true) :
    v ∈ ((o.shown (c.relationGraph o.relations)).targets u).toList ↔
      c.Relates o.relations u v ∧ ¬ c.CutOff o u v := by
  rw [h.cutOff_iff]
  rw [GraphOptions.hasNode_shown] at hu
  unfold GraphOptions.shown
  cases hskip : o.skipLonely with
  | true =>
    simp only [hskip, if_true] at hu ⊢
    have hsel := (h.linked_relationGraph.1 hu).1
    rw [Graph.mem_targets_elideLonely, h.inner_relationGraph]
    constructor
    · rintro ⟨-, hv, huv⟩
      exact ⟨huv, fun hcut => hcut.2.1 hv⟩
    · rintro ⟨huv, hcut⟩
      have hv : v ∈ c.selected.toList := by_contra fun hv => hcut ⟨trivial, hv, hu⟩
      exact ⟨hsel, hv, huv⟩
  | false =>
    simp only [hskip, Bool.false_eq_true, if_false] at hu ⊢
    rw [h.mem_targets_relationGraph]
    rw [h.hasNode_relationGraph] at hu
    simp [hu]

lemma WellKeyed.mem_targets_shownGraph (h : c.WellKeyed)
    (hu : u ∈ (c.shownNames o globs).1.toList) :
    v ∈ ((c.shownGraph o globs).targets u).toList ↔
      c.Relates o.relations u v ∧ ¬ c.CutOff o u v := by
  rw [shownGraph, mem_targets_withPackages]
  cases hnode : (o.shown (c.relationGraph o.relations)).hasNode u with
  | true => simp [h.mem_targets_shown hnode]
  | false =>
    -- no node of the elided graph, so it is there because it installs itself
    have hadded : u ∈ (c.shownNames o globs).2.toList := by
      refine (mem_shownNames.1 hu).resolve_left fun hvis => ?_
      rw [GraphOptions.hasNode_of_visible hvis] at hnode
      cases hnode
    have huncut : ¬ c.CutOff o u v := fun hcut => by
      obtain ⟨hskip, -, hlinked⟩ := h.cutOff_iff.1 hcut
      have := (GraphOptions.hasNode_shown (o := o.toGraphOptions)).2 (by rwa [if_pos hskip])
      rw [this] at hnode
      cases hnode
    have hnone : v ∉ ((o.shown (c.relationGraph o.relations)).targets u).toList := fun hv => by
      rw [Graph.hasNode_of_mem_targets hv] at hnode
      cases hnode
    simp [hadded, huncut, hnone]

lemma WellKeyed.mem_pairs (h : c.WellKeyed) (hview : c.moduleGraph o = .ok view) :
    (u, v) ∈ view.pairs ↔
      u ∈ view.names ∧ v ∈ view.names ∧ c.Relates o.relations u v ∧ ¬ c.CutOff o u v := by
  obtain ⟨globs, -, hnames, hedges⟩ := moduleGraph_ok hview
  rw [GraphView.pairs, hedges, hnames, plainView, GraphView.names_build]
  rw [← GraphView.pairs, GraphView.mem_pairs_build]
  refine and_congr_right fun hu => and_congr_right fun _ => ?_
  exact h.mem_targets_shownGraph hu

lemma nodup_pairs_moduleGraph (hview : c.moduleGraph o = .ok view) : view.pairs.Nodup := by
  obtain ⟨globs, -, -, hedges⟩ := moduleGraph_ok hview
  rw [GraphView.pairs, hedges]
  exact GraphView.nodup_pairs_build

/-- **The edges of a package view.** Each query with well-formed patterns is answered. Each edge
is there once, and the edges are the relations between visible packages, those apart that are cut
off. So a view has all of them just if none that it would have to show is. -/
theorem moduleGraph_pairs (l : List Package) (fs : List Filter) (o : ModuleGraphOptions) :
    ((∃ view, ((ofPackages l).filters fs).moduleGraph o = .ok view) ↔
      (∃ globs, GlobSet.parse o.pattern = .ok globs) ∧
      ∀ version ∈ o.migration, ∃ globs, GlobSet.parse version = .ok globs) ∧
    ∀ view, ((ofPackages l).filters fs).moduleGraph o = .ok view →
      view.pairs.Nodup ∧
      (∀ u v, (u, v) ∈ view.pairs ↔ u ∈ view.names ∧ v ∈ view.names ∧
        ((ofPackages l).filters fs).Relates o.relations u v ∧
        ¬ ((ofPackages l).filters fs).CutOff o u v) ∧
      ((∀ u v, (u, v) ∈ view.pairs ↔ u ∈ view.names ∧ v ∈ view.names ∧
          ((ofPackages l).filters fs).Relates o.relations u v) ↔
        ∀ u ∈ view.names, ∀ v ∈ view.names,
          ((ofPackages l).filters fs).Relates o.relations u v →
          ¬ ((ofPackages l).filters fs).CutOff o u v) := by
  refine ⟨exists_moduleGraph, fun view h => ?_⟩
  have hkeyed := wellKeyed_filters_ofPackages l fs
  have hpairs : ∀ u v, (u, v) ∈ view.pairs ↔ u ∈ view.names ∧ v ∈ view.names ∧
      ((ofPackages l).filters fs).Relates o.relations u v ∧
      ¬ ((ofPackages l).filters fs).CutOff o u v := fun u v => hkeyed.mem_pairs h
  refine ⟨nodup_pairs_moduleGraph h, hpairs, fun hall u hu v hv huv => ?_, fun hnone u v => ?_⟩
  · exact ((hpairs u v).1 ((hall u v).2 ⟨hu, hv, huv⟩)).2.2.2
  · rw [hpairs]
    constructor
    · rintro ⟨hu, hv, huv, -⟩
      exact ⟨hu, hv, huv⟩
    · rintro ⟨hu, hv, huv⟩
      exact ⟨hu, hv, huv, hnone u hu v hv huv⟩

/-! ### An edge that is cut off -/

def sale (t : Float) : Package :=
  { path := ⟨"sale"⟩, name := "sale", depends := .ofList ["base", "tax"], durationSeconds := t }

/-- A package that depends on one that installs itself, and the time that reading each took. -/
def saleAndTax (t : Float) : List Package := [
  { path := ⟨"base"⟩, name := "base", durationSeconds := t },
  sale t,
  { path := ⟨"tax"⟩, name := "tax", depends := .ofList ["base"],
    manifest := .ofList [("auto_install", .bool true)], durationSeconds := t }]

/-- What is shown of them when `tax` has been filtered out. -/
def saleAndTaxView : GraphView where
  nodes := [
    { name := "base", base := true },
    { name := "sale", base := false },
    { name := "tax", base := false, autoIncluded := true }]
  edges := [⟨"sale", "base", false⟩, ⟨"tax", "base", false⟩]

lemma parse_endsWithE : GlobSet.parse "*e" = .ok ⟨[[.anyRun, .char 'e']]⟩ :=
  GlobSet.parse_single (by decide +kernel)

lemma filters_saleAndTax : (ofPackages (saleAndTax 0)).filters [.names "*e"] =
    { ofPackages (saleAndTax 0) with selected := .ofList ["base", "sale"] } :=
  filters_names parse_endsWithE (by decide +kernel)

lemma moduleGraph_saleAndTax :
    ((ofPackages (saleAndTax 0)).filters [.names "*e"]).moduleGraph { full := true } =
      .ok saleAndTaxView := by
  rw [filters_saleAndTax, moduleGraph, moduleView,
    GraphOptions.select_eq GlobSet.parse_star, GraphOptions.matching_star]
  generalize (0 : Float) = t
  cbv

lemma relates_saleAndTax (t : Float) :
    ((ofPackages (saleAndTax t)).filters [.names "*e"]).Relates [.depends] "sale" "tax" := by
  refine ⟨sale t, ?_, .depends, by decide, OrdSet.mem_ofList.2 (by decide)⟩
  rw [full_filters]
  cbv

theorem moduleGraph_pairs_saleAndTax :
    ((ofPackages (saleAndTax 0)).filters [.names "*e"]).moduleGraph { full := true } =
      .ok saleAndTaxView ∧
    saleAndTaxView.pairs.Nodup ∧
    ∀ u v, (u, v) ∈ saleAndTaxView.pairs ↔
      u ∈ saleAndTaxView.names ∧ v ∈ saleAndTaxView.names ∧
      ((ofPackages (saleAndTax 0)).filters [.names "*e"]).Relates [.depends] u v ∧
      ¬ ((ofPackages (saleAndTax 0)).filters [.names "*e"]).CutOff { full := true } u v := by
  have hview := moduleGraph_saleAndTax
  have hedges := (moduleGraph_pairs (saleAndTax 0) [.names "*e"] { full := true }).2 _ hview
  exact ⟨hview, hedges.1, hedges.2.1⟩

/-- A view can lack a relation between two packages that it shows. -/
theorem not_moduleGraph_pairs_eq_relates :
    ¬ ∀ (l : List Package) (fs : List Filter) (o : ModuleGraphOptions) (view : GraphView),
      ((ofPackages l).filters fs).moduleGraph o = .ok view →
      ∀ u v, (u, v) ∈ view.pairs ↔ u ∈ view.names ∧ v ∈ view.names ∧
        ((ofPackages l).filters fs).Relates o.relations u v := by
  intro h
  have hpair := (h _ _ _ _ moduleGraph_saleAndTax "sale" "tax").2
    ⟨by decide, by decide, relates_saleAndTax 0⟩
  revert hpair
  decide

end AddonAtlas.Catalog
