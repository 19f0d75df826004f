import AddonAtlas.Catalog.Filter
import AddonAtlas.Proofs.Ordered.Lookup

/-!
Catalogs that a discovery and filters can make.

Packages are filed under their own names, and only names of the full set are selected. Adding a
package keeps this, and a filter leaves the full set alone.
-/

namespace AddonAtlas

/-- A filter, with what it is given. -/
inductive Filter
  | tests
  | paths (patterns : String)
  | names (patterns : String)
  | states (known : NameMap String) (wanted : String)

namespace Filter

/-- What a filter does to a catalog. -/
def call : Filter → Catalog.Filtering
  | tests => modify Catalog.testFilter
  | paths patterns => Catalog.pathFilter patterns
  | names patterns => Catalog.nameFilter patterns
  | states known wanted => modify fun c => c.stateFilter known wanted

/-- Run a filter on a catalog. What a failure leaves behind is told by the catalog behind it. -/
def run (c : Catalog) (f : Filter) : Except GlobError Catalog :=
  match f.call.run c with
  | .ok _ d => .ok d
  | .error e _ => .error e

open Catalog in
/-- The test that a filter puts packages to, unless its patterns are malformed. -/
def test : Filter → Except GlobError (Package → Bool)
  | .tests => .ok fun p => !isTest p
  | .paths patterns => (GlobSet.parse patterns).map fun g p => g.accepts p.path.text
  | .names patterns => (GlobSet.parse patterns).map fun g p => g.accepts p.name
  | .states known wanted =>
    .ok fun p => (known.get? p.name).any (wantedStates wanted).contains

/-- A filter drops what fails its test. One without a test leaves the catalog as it was. -/
lemma call_eq (c : Catalog) (f : Filter) : f.call.run c = match f.test with
    | .ok keep => .ok () (c.retain keep)
    | .error e => .error e c := by
  cases f with
  | tests | states => rfl
  | paths patterns =>
    rw [call, test, Catalog.pathFilter]
    cases GlobSet.parse patterns <;> rfl
  | names patterns =>
    rw [call, test, Catalog.nameFilter]
    cases GlobSet.parse patterns <;> rfl

end Filter

namespace Catalog

/-- The catalog behind a filter, whether or not it fails. -/
def filter (c : Catalog) (f : Filter) : Catalog :=
  match f.call.run c with
  | .ok _ d | .error _ d => d

/-- The catalog behind a sequence of filters. -/
def filters (c : Catalog) (fs : List Filter) : Catalog := fs.foldl filter c

variable {c d : Catalog} {p : Package} {n : String}

/-- Packages stand under their own names, and selected names are names of packages. -/
structure WellKeyed (c : Catalog) : Prop where
  name : ∀ {n p}, c.full.get? n = some p → p.name = n
  selected : ∀ {n}, n ∈ c.selected.toList → ∃ p, c.full.get? n = some p

/-! ## Filters -/

lemma filter_eq (c : Catalog) (f : Filter) :
    c.filter f = c ∨ ∃ keep, c.filter f = c.retain keep := by
  rw [filter, Filter.call_eq]
  cases f.test with
  | error e => exact .inl rfl
  | ok keep => exact .inr ⟨keep, rfl⟩

lemma full_filter (c : Catalog) (f : Filter) : (c.filter f).full = c.full := by
  rcases filter_eq c f with h | ⟨keep, h⟩ <;> rw [h]
  rfl

lemma selected_of_filter {f : Filter} (h : n ∈ (c.filter f).selected.toList) :
    n ∈ c.selected.toList := by
  rcases filter_eq c f with hf | ⟨keep, hf⟩ <;> rw [hf] at h
  · exact h
  · exact (OrdSet.mem_filter.1 h).1

lemma full_filters (c : Catalog) (fs : List Filter) : (c.filters fs).full = c.full := by
  induction fs generalizing c with
  | nil => rfl
  | cons f fs ih => exact (ih (c.filter f)).trans (full_filter c f)

lemma fullDependency_filters (c : Catalog) (fs : List Filter) (n : String) :
    (c.filters fs).fullDependency n = c.fullDependency n := by
  rw [fullDependency, dependsGraph, full_filters]
  rfl

lemma WellKeyed.filter (h : c.WellKeyed) (f : Filter) : (c.filter f).WellKeyed := by
  constructor
  · intro n p hp
    rw [full_filter] at hp
    exact h.name hp
  · intro n hn
    rw [full_filter]
    exact h.selected (selected_of_filter hn)

lemma WellKeyed.filters (h : c.WellKeyed) (fs : List Filter) : (c.filters fs).WellKeyed := by
  induction fs generalizing c with
  | nil => exact h
  | cons f fs ih => exact ih (h.filter f)

/-! ## Discovered packages -/

lemma WellKeyed.add (h : c.WellKeyed) (p : Package) : (c.add p).WellKeyed := by
  unfold Catalog.add
  split
  · exact ⟨h.name, h.selected⟩
  · constructor
    · intro n q hq
      rw [OrdMap.get?_insert] at hq
      split at hq
      · rename_i hn
        rw [← Option.some.inj hq, hn]
      · exact h.name hq
    · intro n hn
      rw [OrdMap.get?_insert]
      split
      · exact ⟨p, rfl⟩
      · rename_i hne
        exact h.selected ((OrdSet.mem_insert.1 hn).resolve_left hne)

lemma wellKeyed_ofPackages (l : List Package) : (ofPackages l).WellKeyed := by
  have hempty : ({} : Catalog).WellKeyed :=
    ⟨fun h => by simp at h, fun h => by simp [OrdSet.empty] at h⟩
  have hfold : ∀ c : Catalog, c.WellKeyed → (l.foldl add c).WellKeyed := by
    induction l with
    | nil => exact fun c h => h
    | cons p l ih => exact fun c h => ih _ (h.add p)
  exact hfold _ hempty

lemma wellKeyed_filters_ofPackages (l : List Package) (fs : List Filter) :
    ((ofPackages l).filters fs).WellKeyed := (wellKeyed_ofPackages l).filters fs

lemma WellKeyed.mem_packages (h : c.WellKeyed) :
    p ∈ c.packages ↔ c.full.get? p.name = some p ∧ p.name ∈ c.selected.toList := by
  simp only [packages, List.mem_filterMap]
  constructor
  · rintro ⟨n, hn, hp⟩
    obtain rfl := h.name hp
    exact ⟨hp, hn⟩
  · rintro ⟨hp, hn⟩
    exact ⟨p.name, hn, hp⟩

/-- The selected packages have the selected names. -/
lemma WellKeyed.map_name_packages (h : c.WellKeyed) :
    c.packages.map Package.name = c.selected.toList := by
  have hname : ∀ n ∈ c.selected.toList, (c.full.get? n).map Package.name = some n := fun n hn => by
    obtain ⟨p, hp⟩ := h.selected hn
    rw [hp, Option.map_some, h.name hp]
  rw [packages, List.map_filterMap, List.filterMap_congr hname, List.filterMap_some]

/-- What is made of the selected packages stands under their names. -/
lemma WellKeyed.get?_ofList_packages {α : Type v} (h : c.WellKeyed) (f : Package → α) {v : α} :
    (OrdMap.ofList (c.packages.map fun p => (p.name, f p))).get? n = some v ↔
      n ∈ c.selected.toList ∧ (c.full.get? n).map f = some v := by
  have hmem (k : String) (w : α) : (k, w) ∈ c.packages.map (fun p => (p.name, f p)) ↔
      k ∈ c.selected.toList ∧ (c.full.get? k).map f = some w := by
    simp only [List.mem_map, Prod.mk.injEq, h.mem_packages, Option.map_eq_some_iff]
    constructor
    · rintro ⟨p, ⟨hp, hs⟩, rfl, rfl⟩
      exact ⟨hs, p, hp, rfl⟩
    · rintro ⟨hs, p, hp, rfl⟩
      obtain rfl := h.name hp
      exact ⟨p, ⟨hp, hs⟩, rfl, rfl⟩
  rw [OrdMap.get?_ofList_iff, hmem]
  intro k w w' hw hw'
  exact Option.some.inj (((hmem k w).1 hw).2.symm.trans ((hmem k w').1 hw').2)

lemma WellKeyed.mem_keys_ofList_packages {α : Type v} (h : c.WellKeyed) (f : Package → α) :
    n ∈ (OrdMap.ofList (c.packages.map fun p => (p.name, f p))).keys ↔ n ∈ c.selected.toList := by
  simp only [OrdMap.mem_keys_iff, h.get?_ofList_packages]
  constructor
  · rintro ⟨v, hn, hv⟩
    exact hn
  · intro hn
    obtain ⟨p, hp⟩ := h.selected hn
    exact ⟨f p, hn, by rw [hp, Option.map_some]⟩

end Catalog

end AddonAtlas
