import AddonAtlas.Proofs.Catalog.Models
import AddonAtlas.Proofs.Catalog.Shown
import AddonAtlas.Proofs.Package.Records

/-!
The edges between the views of a catalog.

A view may be declared in several packages and several times in each. All that any declaration calls
is kept. What the view extends is up to its first declaration in the first of the packages that have
it, in the order of names: the targets of other declarations show no edge.
-/

namespace AddonAtlas

namespace Catalog

open OrdMap

variable {α : Type v} {c : Catalog} {o : ViewGraphOptions} {p : Package} {n u v : String}

/-- A look-up finds a value in a selected package, and nothing in selected packages of earlier
names. -/
def FoundFirst (c : Catalog) (look : Package → Option α) (v : α) : Prop :=
  ∃ n ∈ c.selected.toList, (c.full.get? n).bind look = some v ∧
    ∀ n' ∈ c.selected.toList, n' < n → (c.full.get? n').bind look = none

lemma head?_packages {look : Package → Option α} {v : α} :
    (c.packages.filterMap look).head? = some v ↔ c.FoundFirst look v := by
  rw [filterMap_packages, head?_filterMap_iff (NameSet.sorted c.selected)]
  rfl

/-- A selected package has a view. -/
def HasView (c : Catalog) (n : String) : Prop := ∃ p ∈ c.packages, n ∈ p.views.keys

/-- The declaration of a view that comes first has a target. -/
def FirstExtends (c : Catalog) (u v : String) : Prop :=
  ∃ r, c.FoundFirst (fun p => p.views.get? u) r ∧ r.inherit = some v

/-- A declaration of a view calls another one. -/
def SomeCalls (c : Catalog) (u v : String) : Prop :=
  ∃ p ∈ c.packages, ∃ r, p.views.get? u = some r ∧ v ∈ r.calls.toList

/-! ## Views put together -/

/-- The views of one name in the selected packages, in the order of their names. -/
def viewPieces (c : Catalog) (n : String) : List Record :=
  c.packages.filterMap fun p => p.views.get? n

lemma mem_viewPieces {r : Record} :
    r ∈ c.viewPieces n ↔ ∃ p ∈ c.packages, p.views.get? n = some r := List.mem_filterMap

lemma views_eq_gather (c : Catalog) : c.views = gather Record.merge Package.views c.packages := by
  rw [views, gather]
  congr
  funext m e
  exact update_eq_mergeIn rfl (fun _ => rfl) m e.1

lemma get?_views (c : Catalog) (n : String) :
    c.views.get? n = mergeList Record.merge (c.viewPieces n) := by
  rw [views_eq_gather, get?_gather]
  rfl

lemma hasView_iff : c.HasView n ↔ ∃ r, c.views.get? n = some r := by
  rw [← mem_keys_iff, views_eq_gather, mem_keys_gather, HasView]

lemma joins_viewPieces (h : ∀ p ∈ c.packages, p.NamesViews) {r : Record}
    (hr : c.views.get? n = some r) : r.Joins (c.viewPieces n) := by
  rw [get?_views] at hr
  refine (Record.joins_mergeList (n := n) (fun d hd => ?_) hr).2
  obtain ⟨p, hp, hget⟩ := mem_viewPieces.1 hd
  exact h p hp n d hget

lemma extends_iff_firstExtends (h : ∀ p ∈ c.packages, p.NamesViews) {r : Record}
    (hr : c.views.get? u = some r) : r.inherit = some v ↔ c.FirstExtends u v := by
  obtain ⟨d, hd, hinherit, -⟩ := (joins_viewPieces h hr).first
  rw [viewPieces] at hd
  simp only [hinherit, FirstExtends, ← head?_packages, hd, Option.some.injEq, exists_eq_left']

lemma mem_calls_iff_someCalls (h : ∀ p ∈ c.packages, p.NamesViews) {r : Record}
    (hr : c.views.get? u = some r) : v ∈ r.calls.toList ↔ c.SomeCalls u v := by
  rw [(joins_viewPieces h hr).calls, SomeCalls]
  simp only [mem_viewPieces]
  exact ⟨fun ⟨d, ⟨p, hp, hget⟩, hv⟩ => ⟨p, hp, d, hget, hv⟩,
    fun ⟨p, hp, d, hget, hv⟩ => ⟨d, ⟨p, hp, hget⟩, hv⟩⟩

/-! ## Edges -/

lemma hasNode_viewLinks : (c.viewLinks o).hasNode n = true ↔ c.HasView n := by
  rw [Graph.hasNode, contains_iff_exists, viewLinks, get?_mapValues, hasView_iff]
  cases c.views.get? n <;> simp

lemma mem_targets_viewLinks (h : ∀ p ∈ c.packages, p.NamesViews) (hu : c.HasView u) :
    v ∈ ((c.viewLinks o).targets u).toList ↔
      o.inherit = true ∧ c.FirstExtends u v ∨ o.calls = true ∧ c.SomeCalls u v := by
  obtain ⟨r, hr⟩ := hasView_iff.1 hu
  have htargets : (c.viewLinks o).targets u =
      (if o.calls then r.calls else .empty).insertMany
        (if o.inherit then r.inherit.toList else []) := by
    rw [Graph.targets, viewLinks, getD, get?_mapValues, hr]
    rfl
  rw [htargets, OrdSet.mem_insertMany, ← extends_iff_firstExtends h hr,
    ← mem_calls_iff_someCalls h hr]
  cases o.inherit <;> cases o.calls <;> simp [OrdSet.empty, or_comm]

/-- **Views across packages.** With lonely views shown too, the view graph has a node for each view
of the selected packages. An edge between two of them is shown just if the declaration of its
source that comes first has its target, or some declaration calls it. Within a package, a view that
is declared several times joins its declarations: the target is that of the first one, the calls
are those of all. -/
theorem viewGraph_edges (c : Catalog) (o : ViewGraphOptions) (h : ∀ p ∈ c.packages, p.NamesViews)
    (hpattern : o.pattern = "*") (hlonely : o.skipLonely = false) :
    (∃ view, c.viewGraph o = .ok view ∧ (∀ n, n ∈ view.names ↔ c.HasView n) ∧ view.pairs.Nodup ∧
      ∀ u v, (u, v) ∈ view.pairs ↔ c.HasView u ∧ c.HasView v ∧
        (o.inherit = true ∧ c.FirstExtends u v ∨ o.calls = true ∧ c.SomeCalls u v)) ∧
    ∀ (p : Package) rs n, p.NamesViews →
      ((rs.foldl Package.mergeRecord p).views.get? n = none ↔ p.viewDeclarations rs n = []) ∧
      ∀ r, (rs.foldl Package.mergeRecord p).views.get? n = some r →
        r.name = n ∧ r.Joins (p.viewDeclarations rs n) := by
  refine ⟨?_, fun p rs n hnames => ⟨?_, fun r hr => Package.joins_foldl_mergeRecord hnames hr⟩⟩
  · have hstar : GlobSet.parse o.pattern = .ok .star := by rw [hpattern, GlobSet.parse_star]
    obtain ⟨view, hview, hshows⟩ := GraphOptions.view_shows hstar (c.viewLinks o)
    have hvisible (n : String) : o.Visible .star (c.viewLinks o) n ↔ c.HasView n :=
      (GraphOptions.visible_star hlonely).trans hasNode_viewLinks
    refine ⟨view, hview, fun n => (hshows.nodes n).trans (hvisible n), hshows.once, fun u v => ?_⟩
    rw [hshows.edges, hvisible, hvisible, Graph.inner_iff, hasNode_viewLinks]
    constructor
    · rintro ⟨⟨htarget, -⟩, hu, hv⟩
      exact ⟨hu, hv, (mem_targets_viewLinks h hu).1 htarget⟩
    · rintro ⟨hu, hv, hedge⟩
      exact ⟨⟨(mem_targets_viewLinks h hu).2 hedge, hv⟩, hu, hv⟩
  · rw [Package.get?_views_foldl_mergeRecord, mergeList_eq_none_iff]

/-! ### A form that two packages extend -/

/-- A package with a base view, and with a form that extends it. -/
def formOf (name base : String) (t : Float) : Package where
  path := ⟨name⟩
  name := name
  views := .ofList [(base, { name := base, view := true }),
    ("shop.form", { name := "shop.form", inherit := some base, view := true })]
  durationSeconds := t

/-- The form extends a view of each of the two packages. -/
def forms (t : Float) : Catalog :=
  .ofPackages [formOf "sale" "sale.base" t, formOf "shop" "shop.base" t]

lemma packages_forms (t : Float) :
    (forms t).packages = [formOf "sale" "sale.base" t, formOf "shop" "shop.base" t] := by cbv

lemma namesViews_formOf (name base : String) (t : Float) : (formOf name base t).NamesViews := by
  intro n r hr
  have hentry := mem_of_get?_ofList hr
  simp only [List.mem_cons, List.not_mem_nil, or_false, Prod.mk.injEq] at hentry
  rcases hentry with ⟨rfl, rfl⟩ | ⟨rfl, rfl⟩ <;> rfl

lemma namesViews_forms : ∀ p ∈ (forms 0).packages, p.NamesViews := by
  rw [packages_forms]
  simp only [List.mem_cons, List.not_mem_nil, or_false]
  rintro p (rfl | rfl)
  · exact namesViews_formOf "sale" "sale.base" 0
  · exact namesViews_formOf "shop" "shop.base" 0

theorem viewGraph_edges_forms : (∀ p ∈ (forms 0).packages, p.NamesViews) ∧
    ∃ view, (forms 0).viewGraph { skipLonely := false } = .ok view ∧
      ∀ u v, (u, v) ∈ view.pairs ↔ (forms 0).HasView u ∧ (forms 0).HasView v ∧
        ((forms 0).FirstExtends u v ∨ (forms 0).SomeCalls u v) := by
  obtain ⟨⟨view, hview, -, -, hedges⟩, -⟩ :=
    viewGraph_edges (forms 0) { skipLonely := false } namesViews_forms rfl rfl
  exact ⟨namesViews_forms, view, hview, fun u v => by simpa only [true_and] using hedges u v⟩

/-- It is not so that the view graph shows the target of every declaration: a later package's target
for a view that an earlier one extends differently is not there. -/
theorem not_viewGraph_all_targets : ¬ ∀ (c : Catalog) (o : ViewGraphOptions) (view : GraphView)
    (p : Package) (r : Record) (u v : String), (∀ p ∈ c.packages, p.NamesViews) →
    o.inherit = true → o.skipLonely = false → o.pattern = "*" → p ∈ c.packages →
    p.views.get? u = some r → r.inherit = some v → c.HasView u → c.HasView v →
    c.viewGraph o = .ok view → (u, v) ∈ view.pairs := by
  intro h
  have hview : (forms 0).viewGraph { skipLonely := false } = .ok {
      nodes := [{ name := "sale.base", base := true }, { name := "shop.base", base := true },
        { name := "shop.form", base := false }]
      edges := [⟨"shop.form", "sale.base", false⟩] } := by
    rw [viewGraph, GraphOptions.view_eq GlobSet.parse_star]
    exact congrArg Except.ok (by decide +kernel)
  have hshop : formOf "shop" "shop.base" 0 ∈ (forms 0).packages := by
    rw [packages_forms]
    exact List.mem_cons_of_mem _ List.mem_cons_self
  have hform : (formOf "shop" "shop.base" 0).views.get? "shop.form" =
      some { name := "shop.form", inherit := some "shop.base", view := true } := by cbv
  have hbase : (formOf "shop" "shop.base" 0).views.get? "shop.base" =
      some { name := "shop.base", view := true } := by cbv
  have hedge := h (forms 0) { skipLonely := false } _ _ _ "shop.form" "shop.base" namesViews_forms
    rfl rfl rfl hshop hform rfl ⟨_, hshop, mem_keys_iff.2 ⟨_, hform⟩⟩
    ⟨_, hshop, mem_keys_iff.2 ⟨_, hbase⟩⟩ hview
  revert hedge
  decide

end Catalog

end AddonAtlas
