import AddonAtlas.Proofs.Catalog.Declared
import AddonAtlas.Proofs.Catalog.Filters

/-!
Dependency reports of filtered catalogs.

An entry of the report is made from its own package and from the full set, which filters leave
alone. So filters only take entries away, and a package has one entry in all reports that have one
for it.
-/

namespace AddonAtlas.Catalog

open OrdMap

variable {c : Catalog} {p : Package} {n : String}

/-- The report has an entry for each selected name, made from the package of the full set. -/
lemma WellKeyed.get?_dependencyReport_eq (h : c.WellKeyed) (n : String) :
    c.dependencyReport.get? n =
      if n ∈ c.selected.toList then (c.full.get? n).map (c.usage c.owners) else none := by
  ext u
  rw [dependencyReport, h.get?_ofList_packages (c.usage c.owners)]
  split <;> simp [*]

/-- What a package uses and misses is told by the full set. -/
lemma usage_filters (c : Catalog) (fs : List Filter) (owners : NameMap String) :
    (c.filters fs).usage owners = c.usage owners := by
  funext p
  rw [usage, usage, fullDependency_filters]

/-- Filters take away the entries of the packages that they drop, and nothing else. -/
lemma WellKeyed.dependencyReport_filters_eq (h : c.WellKeyed) (fs : List Filter) :
    (c.filters fs).dependencyReport =
      c.dependencyReport.filter fun n _ => (c.filters fs).selected.contains n :=
    ext_get? fun n => by
      rw [get?_filter, (h.filters fs).get?_dependencyReport_eq, h.get?_dependencyReport_eq,
        full_filters, owners_filters, usage_filters]
      by_cases hn : n ∈ (c.filters fs).selected.toList
      · have hbefore : n ∈ c.selected.toList := (mem_selected_filters.1 hn).1
        have hkeep : (c.filters fs).selected.contains n = true := OrdSet.contains_iff.2 hn
        rw [if_pos hn, if_pos hbefore, hkeep]
        cases (c.full.get? n).map (c.usage c.owners) <;> rfl
      · have hdrop : (c.filters fs).selected.contains n = false := by
          rw [← Bool.not_eq_true, OrdSet.contains_iff]
          exact hn
        rw [if_neg hn, hdrop]
        cases (if n ∈ c.selected.toList then (c.full.get? n).map (c.usage c.owners)
          else none) <;> rfl

lemma WellKeyed.mem_keys_dependencyReport (h : c.WellKeyed) :
    n ∈ c.dependencyReport.keys ↔ n ∈ c.selected.toList :=
  h.mem_keys_ofList_packages (c.usage c.owners)

/-- **Reports under filters.** However discovered packages have been filtered, the report has one
entry for each selected package. Further filters leave those entries that belong to packages which
are still selected, each as it was; so two sequences of filters report the same of any package that
both of them leave. -/
theorem dependencyReport_filters (l : List Package) (fs gs hs : List Filter) :
    (∀ n, n ∈ ((ofPackages l).filters fs).dependencyReport.keys ↔
      n ∈ ((ofPackages l).filters fs).selected.toList) ∧
    (((ofPackages l).filters fs).filters gs).dependencyReport =
      ((ofPackages l).filters fs).dependencyReport.filter
        (fun n _ => (((ofPackages l).filters fs).filters gs).selected.contains n) ∧
    ∀ n, n ∈ ((ofPackages l).filters gs).selected.toList →
      n ∈ ((ofPackages l).filters hs).selected.toList →
      ((ofPackages l).filters gs).dependencyReport.get? n =
        ((ofPackages l).filters hs).dependencyReport.get? n := by
  have h := wellKeyed_ofPackages l
  refine ⟨fun n => (h.filters fs).mem_keys_dependencyReport,
    (h.filters fs).dependencyReport_filters_eq gs, fun n hg hh => ?_⟩
  rw [h.dependencyReport_filters_eq gs, h.dependencyReport_filters_eq hs, get?_filter, get?_filter,
    OrdSet.contains_iff.2 hg, OrdSet.contains_iff.2 hh]

end AddonAtlas.Catalog
