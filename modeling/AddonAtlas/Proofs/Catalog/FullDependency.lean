import AddonAtlas.Proofs.Catalog.Saturation

/-!
Package views with full dependencies, told by the full dependencies of single packages.

A view follows all matching packages at once, in the graph of the selected packages without its
lonely nodes. The full dependencies of a package follow that package alone, in the graph of the
full set, and leave it out at the end. Where nothing was filtered out both follow the declared
dependencies between packages of the full set.
-/

open Relation

namespace AddonAtlas.Catalog

variable {c : Catalog} {o : ModuleGraphOptions} {globs : GlobSet} {u v n : String}

lemma inner_dependsGraph :
    c.dependsGraph.Inner u v ↔ c.full.contains v = true ∧ c.Relates [.depends] u v := by
  rw [Graph.inner_iff, mem_targets_dependsGraph, hasNode_dependsGraph, and_comm]
  refine and_congr_right fun _ => ?_
  simp [Relates, Package.relation]

/-- Nothing was filtered out. -/
def Unfiltered (c : Catalog) : Prop := ∀ n, n ∈ c.selected.toList ↔ c.full.contains n = true

lemma unfiltered_ofPackages (l : List Package) : (ofPackages l).Unfiltered := by
  have hadd : ∀ (c : Catalog) (p : Package), c.Unfiltered → (c.add p).Unfiltered := by
    intro c p h n
    unfold add
    split
    · exact h n
    · rw [OrdSet.mem_insert, h n, OrdMap.contains_iff_exists, OrdMap.contains_iff_exists,
        OrdMap.get?_insert]
      split
      · exact iff_of_true (.inl ‹n = p.name›) ⟨p, rfl⟩
      · exact or_iff_right ‹¬n = p.name›
  have hfold : ∀ c : Catalog, c.Unfiltered → (l.foldl add c).Unfiltered := by
    induction l with
    | nil => exact fun c h => h
    | cons p l ih => exact fun c h => ih _ (hadd c p h)
  exact hfold {} fun n => by simp [OrdSet.empty, OrdMap.contains]

lemma WellKeyed.inner_relationGraph_depends (h : c.WellKeyed) (hall : c.Unfiltered) :
    (c.relationGraph [.depends]).Inner = c.dependsGraph.Inner := by
  ext u v
  rw [h.inner_relationGraph, inner_dependsGraph, hall u, hall v]
  refine and_iff_right_of_imp fun hv => ?_
  obtain ⟨p, hp, -⟩ := hv.2
  exact OrdMap.contains_iff_exists.2 ⟨p, hp⟩

/-- A package of the full set that matches. Where lonely nodes are skipped, there has to be a
declared dependency between it and a package of the full set. -/
def Matches (c : Catalog) (o : GraphOptions) (globs : GlobSet) (n : String) : Prop :=
  c.full.contains n = true ∧ globs.accepts n = true ∧
    (o.skipLonely = true → ∃ m, c.full.contains m = true ∧
      (c.Relates [.depends] n m ∨ c.Relates [.depends] m n))

lemma linked_dependsGraph (hn : c.full.contains n = true) :
    c.dependsGraph.Linked n ↔ ∃ m, c.full.contains m = true ∧
      (c.Relates [.depends] n m ∨ c.Relates [.depends] m n) := by
  simp only [Graph.Linked, inner_dependsGraph]
  constructor
  · rintro ⟨m, ⟨hm, hnm⟩ | ⟨-, hmn⟩⟩
    · exact ⟨m, hm, .inl hnm⟩
    · have hm : c.full.contains m = true := by
        obtain ⟨p, hp, -⟩ := hmn
        exact OrdMap.contains_iff_exists.2 ⟨p, hp⟩
      exact ⟨m, hm, .inr hmn⟩
  · rintro ⟨m, hm, hnm | hmn⟩
    · exact ⟨m, .inl ⟨hm, hnm⟩⟩
    · exact ⟨m, .inr ⟨hn, hmn⟩⟩

lemma WellKeyed.asked_iff (h : c.WellKeyed) (hall : c.Unfiltered) {o : GraphOptions} :
    o.Asked globs (c.relationGraph [.depends]) n ↔ c.Matches o globs n := by
  have hnode : (c.relationGraph [.depends]).hasNode n = true ↔ c.full.contains n = true := by
    rw [h.hasNode_relationGraph, hall n]
  have hlinked : (c.relationGraph [.depends]).Linked n ↔ c.dependsGraph.Linked n := by
    simp only [Graph.Linked, h.inner_relationGraph_depends hall]
  unfold GraphOptions.Asked Matches
  rw [hlinked, hnode, and_left_comm]
  refine and_congr_right fun _ => ?_
  cases o.skipLonely with
  | false => simp
  | true =>
    simp only [if_true, forall_const]
    constructor
    · intro hlinked
      have hn : c.full.contains n = true := by
        rw [← hasNode_dependsGraph]
        obtain ⟨m, hm | hm⟩ := hlinked
        · exact hm.source
        · exact hm.target
      exact ⟨hn, (linked_dependsGraph hn).1 hlinked⟩
    · rintro ⟨hn, hlinked⟩
      exact (linked_dependsGraph hn).2 hlinked

/-- What is visible with full dependencies are the matching packages and their closures. -/
lemma WellKeyed.visible_iff (h : c.WellKeyed) (hall : c.Unfiltered) {o : GraphOptions}
    (hfull : o.full = true) :
    o.Visible globs (c.relationGraph [.depends]) n ↔ c.Matches o globs n ∨
      ∃ m, c.Matches o globs m ∧ n ∈ (c.fullDependency m).toList := by
  simp only [GraphOptions.Visible, h.asked_iff hall, h.inner_relationGraph_depends hall, hfull,
    true_and, fullDependency, Graph.mem_closure, hasNode_dependsGraph]
  constructor
  · rintro (hn | ⟨m, hm, hmn⟩)
    · exact .inl hn
    · -- the closure of a package leaves the package itself out
      by_cases hne : n = m
      · exact .inl (hne ▸ hm)
      · exact .inr ⟨m, hm, hm.1, hmn, hne⟩
  · rintro (hn | ⟨m, hm, -, hmn, -⟩)
    · exact .inl hn
    · exact .inr ⟨m, hm, hmn⟩

/-- **Full dependencies of a view.** A query for packages with their full declared dependencies is
answered if its patterns are well-formed. Where nothing was filtered out, the nodes of the answer
that were not auto-included are the packages that match, together with the full dependencies of
each of them. -/
theorem moduleGraph_fullDependency (l : List Package) (o : ModuleGraphOptions) {globs : GlobSet}
    (hrelations : o.relations = [.depends]) (hfull : o.full = true)
    (hpattern : GlobSet.parse o.pattern = .ok globs)
    (hversion : ∀ version ∈ o.migration, ∃ versions, GlobSet.parse version = .ok versions) :
    ∃ view, (ofPackages l).moduleGraph o = .ok view ∧
      ∀ n, (∃ x ∈ view.nodes, x.name = n ∧ x.autoIncluded = false) ↔
        (ofPackages l).Matches o.toGraphOptions globs n ∨
          ∃ m, (ofPackages l).Matches o.toGraphOptions globs m ∧
            n ∈ ((ofPackages l).fullDependency m).toList := by
  obtain ⟨view, hview⟩ := exists_moduleGraph.2 ⟨⟨globs, hpattern⟩, hversion⟩
  refine ⟨view, hview, fun n => ?_⟩
  obtain ⟨globs', hglobs', hfollowed, -⟩ := mem_marks hview
  rw [hpattern] at hglobs'
  obtain rfl := Except.ok.inj hglobs'
  have hmark : (∃ x ∈ view.nodes, x.name = n ∧ x.autoIncluded = false) ↔
      (n, false) ∈ view.marks := by
    simp [GraphView.marks]
  rw [hmark, hfollowed, hrelations]
  exact (wellKeyed_ofPackages l).visible_iff (unfiltered_ofPackages l) hfull

theorem moduleGraph_fullDependency_sale :
    GlobSet.parse "s*" = .ok ⟨[[.char 's', .anyRun]]⟩ ∧
    ∃ view, (ofPackages (saleAndTax 0)).moduleGraph { pattern := "s*", full := true } = .ok view ∧
      ∀ n, (∃ x ∈ view.nodes, x.name = n ∧ x.autoIncluded = false) ↔
        (ofPackages (saleAndTax 0)).Matches { pattern := "s*", full := true }
          ⟨[[.char 's', .anyRun]]⟩ n ∨
        ∃ m, (ofPackages (saleAndTax 0)).Matches { pattern := "s*", full := true }
          ⟨[[.char 's', .anyRun]]⟩ m ∧
          n ∈ ((ofPackages (saleAndTax 0)).fullDependency m).toList := by
  have hpattern : GlobSet.parse "s*" = .ok ⟨[[.char 's', .anyRun]]⟩ :=
    GlobSet.parse_single (by decide +kernel)
  exact ⟨hpattern,
    moduleGraph_fullDependency (saleAndTax 0) { pattern := "s*", full := true } rfl rfl
      hpattern (by simp)⟩

end AddonAtlas.Catalog
