import AddonAtlas.Catalog.Usage
import AddonAtlas.Proofs.Catalog.Selection
import AddonAtlas.Proofs.Graph.Reach

/-!
Declared dependencies in the dependency report.

A used package is missing if it is not in the closure of the declared dependencies. The closure
follows inner edges, so a dependency is in it just if it is a package of the full set: what a
package declares is missing all the same if no package of that name was found.
-/

namespace AddonAtlas.Catalog

open OrdMap

variable {c : Catalog} {p : Package} {owners : NameMap String} {u v n d : String}

lemma owners_filters (c : Catalog) (fs : List Filter) : (c.filters fs).owners = c.owners := by
  rw [owners, full_filters]
  rfl

lemma hasNode_dependsGraph : c.dependsGraph.hasNode n = c.full.contains n := by
  simp [Graph.hasNode, OrdMap.contains, dependsGraph]

lemma mem_targets_dependsGraph :
    v ∈ (c.dependsGraph.targets u).toList ↔
      ∃ p, c.full.get? u = some p ∧ v ∈ p.depends.toList := by
  rw [Graph.mem_targets, dependsGraph, get?_mapValues]
  simp only [Option.map_eq_some_iff]
  constructor
  · rintro ⟨_, ⟨p, hp, rfl⟩, hv⟩
    exact ⟨p, hp, hv⟩
  · rintro ⟨p, hp, hv⟩
    exact ⟨_, ⟨p, hp, rfl⟩, hv⟩

lemma hasNode_of_mem_fullDependency (h : v ∈ (c.fullDependency u).toList) :
    c.full.contains v = true := by
  obtain ⟨hu, huv, -⟩ := Graph.mem_closure.1 h
  rw [← hasNode_dependsGraph]
  exact Graph.hasNode_of_path huv hu

/-- A dependency is in the closure if it is another package of the full set. -/
lemma mem_fullDependency_of_depends (hp : c.full.get? u = some p) (hd : d ∈ p.depends.toList)
    (hfull : c.full.contains d = true) (hne : d ≠ u) : d ∈ (c.fullDependency u).toList := by
  have hedge : c.dependsGraph.Inner u d := by
    rw [Graph.inner_iff, mem_targets_dependsGraph, hasNode_dependsGraph]
    exact ⟨⟨p, hp, hd⟩, hfull⟩
  exact Graph.mem_closure.2 ⟨hedge.source, .single hedge, hne⟩

/-! ## Usage -/

lemma mem_usedBy {x : String} :
    x ∈ (usedBy owners p).toList ↔ (x ∈ p.imports.toList ∨ x ∈ p.refers.toList) ∨
      ∃ m ∈ p.models.values, ∃ parent ∈ m.parents, owners.get? parent = some x := by
  simp only [usedBy, OrdSet.mem_insertMany, OrdSet.mem_union, List.mem_filterMap,
    List.mem_flatMap]
  refine or_congr_right ⟨?_, ?_⟩
  · rintro ⟨parent, ⟨m, hm, hparent⟩, hx⟩
    exact ⟨m, hm, parent, hparent, hx⟩
  · rintro ⟨m, hm, parent, hparent, hx⟩
    exact ⟨parent, ⟨m, hm, hparent⟩, hx⟩

lemma mem_missing {x : String} :
    x ∈ (c.usage owners p).missing.toList ↔ x ∈ (usedBy owners p).toList ∧
      x ∉ (c.fullDependency p.name).toList ∧ x ≠ basePackage ∧ x ≠ p.name := by
  simp only [usage, OrdSet.mem_filter, Bool.and_eq_true, decide_eq_true_eq, Bool.not_eq_true',
    ← Bool.not_eq_true, OrdSet.contains_iff, and_assoc]

/-- Owners are packages of the full set. -/
lemma WellKeyed.owner_mem_full (h : c.WellKeyed) {model owner : String}
    (ho : c.owners.get? model = some owner) : c.full.contains owner = true := by
  have hentry := mem_of_get?_ofList ho
  simp only [List.mem_flatMap, mem_values_iff, List.mem_map, Prod.mk.injEq] at hentry
  obtain ⟨q, ⟨k, hk⟩, -, -, -, rfl⟩ := hentry
  obtain rfl := h.name hk
  exact contains_iff_exists.2 ⟨q, hk⟩

lemma WellKeyed.get?_dependencyReport (h : c.WellKeyed) (hp : p ∈ c.packages) :
    c.dependencyReport.get? p.name = some (c.usage c.owners p) := by
  obtain ⟨hfull, hn⟩ := h.mem_packages.1 hp
  exact (h.get?_ofList_packages (c.usage c.owners)).2 ⟨hn, by rw [hfull, Option.map_some]⟩

lemma WellKeyed.declared_missing (h : c.WellKeyed) (hp : p ∈ c.packages)
    (hd : d ∈ p.depends.toList) :
    d ∈ (c.usage c.owners p).missing.toList ↔ c.full.contains d = false ∧ d ≠ basePackage ∧
      (d ∈ p.imports.toList ∨ d ∈ p.refers.toList) := by
  have hfull := ((h.mem_packages).1 hp).1
  rw [mem_missing, mem_usedBy]
  constructor
  · rintro ⟨hused, hclosure, hbase, hne⟩
    have habsent : c.full.contains d = false := by
      rw [← Bool.not_eq_true]
      exact fun hin => hclosure (mem_fullDependency_of_depends hfull hd hin hne)
    refine ⟨habsent, hbase, hused.resolve_right ?_⟩
    rintro ⟨m, -, parent, -, ho⟩
    rw [h.owner_mem_full ho] at habsent
    cases habsent
  · rintro ⟨habsent, hbase, hused⟩
    refine ⟨.inl hused, fun hclosure => ?_, hbase, ?_⟩
    · rw [hasNode_of_mem_fullDependency hclosure] at habsent
      cases habsent
    · rintro rfl
      rw [contains_iff_exists.2 ⟨p, hfull⟩] at habsent
      cases habsent

/-- **Declared and missing.** In the report, a declared dependency of a selected package counts
as missing just if it is used by a source or by markup, is not the base package, and is no package
of the full set. -/
theorem declared_missing_iff (l : List Package) (fs : List Filter) {p : Package}
    (hp : p ∈ ((ofPackages l).filters fs).packages) :
    ∃ entry, ((ofPackages l).filters fs).dependencyReport.get? p.name = some entry ∧
      ∀ d ∈ p.depends.toList, d ∈ entry.missing.toList ↔
        (ofPackages l).full.contains d = false ∧ d ≠ basePackage ∧
          (d ∈ p.imports.toList ∨ d ∈ p.refers.toList) := by
  have h := wellKeyed_filters_ofPackages l fs
  refine ⟨_, h.get?_dependencyReport hp, fun d hd => ?_⟩
  rw [h.declared_missing hp hd, full_filters]

/-! ### A dependency that was not found -/

/-- A package that declares another one and imports it, and the time that reading it took. -/
def importer (t : Float) : Package :=
  { path := ⟨"sale"⟩, name := "sale", depends := .ofList ["web"], imports := .ofList ["web"],
    durationSeconds := t }

lemma importer_mem_packages (t : Float) : importer t ∈ (ofPackages [importer t]).packages := by
  have h : (ofPackages [importer t]).packages = [importer t] := by cbv
  rw [h]
  exact List.mem_singleton_self _

lemma contains_importer (t : Float) : (ofPackages [importer t]).full.contains "web" = false := by
  cbv

theorem declared_missing_importer :
    importer 0 ∈ (ofPackages [importer 0]).packages ∧
    ∃ entry, (ofPackages [importer 0]).dependencyReport.get? "sale" = some entry ∧
      ∀ d ∈ ["web"], d ∈ entry.missing.toList ↔
        (ofPackages [importer 0]).full.contains d = false ∧ d ≠ basePackage ∧
          (d ∈ ["web"] ∨ d ∈ ([] : List String)) :=
  ⟨importer_mem_packages 0, declared_missing_iff [importer 0] [] (importer_mem_packages 0)⟩

/-- A declared dependency can be reported as missing. -/
theorem not_declared_imp_not_missing :
    ¬ ∀ (l : List Package), ∀ p ∈ (ofPackages l).packages, ∀ entry,
      (ofPackages l).dependencyReport.get? p.name = some entry →
      ∀ d ∈ p.depends.toList, d ∉ entry.missing.toList := by
  intro h
  have hkeyed := wellKeyed_ofPackages [importer 0]
  have hp := importer_mem_packages 0
  have hd : "web" ∈ (importer 0).depends.toList := by decide
  have hmissing := (hkeyed.declared_missing hp hd).2
    ⟨contains_importer 0, by decide, .inl (by decide)⟩
  exact h _ _ hp _ (hkeyed.get?_dependencyReport hp) _ hd hmissing

end AddonAtlas.Catalog
