import AddonAtlas.Catalog.Saved
import AddonAtlas.Proofs.Catalog.Selection

/-!
What sequences of filters leave selected.

A filter puts each selected package to a test that does not depend on the selection, so a name
stays just if its package passes every test. The order of the filters and repeats do not show, a
filter with malformed patterns asks nothing, and whatever is looked up in the full set stays.
-/

namespace AddonAtlas

namespace Catalog

variable {c : Catalog} {f : Filter} {fs gs : List Filter} {n : String} {e : GlobError}

lemma run_eq (c : Catalog) (f : Filter) : f.run c = f.test.map c.retain := by
  rw [Filter.run, Filter.call_eq]
  cases f.test <;> rfl

/-- The package under a name passes the test of a filter. One that fails has no test. -/
def Passes (c : Catalog) (f : Filter) (n : String) : Prop :=
  ∀ keep, f.test = .ok keep → (c.full.get? n).any keep = true

/-! ## One filter -/

lemma filter_of_error (h : f.test = .error e) (c : Catalog) : c.filter f = c := by
  rw [filter, Filter.call_eq, h]

lemma filter_of_ok {keep : Package → Bool} (h : f.test = .ok keep) (c : Catalog) :
    c.filter f = c.retain keep := by
  rw [filter, Filter.call_eq, h]

lemma filters_names {patterns : String} {globs : GlobSet} {selected : NameSet}
    (h : GlobSet.parse patterns = .ok globs)
    (hselected : (c.retain fun p => globs.accepts p.name).selected.toList = selected.toList) :
    c.filters [.names patterns] = { c with selected } := by
  have htest : (Filter.names patterns).test = .ok fun p => globs.accepts p.name := by
    rw [Filter.test, h]
    rfl
  exact (filter_of_ok htest c).trans
    (congrArg (fun s => { c with selected := s }) (OrdSet.ext_toList hselected))

lemma mem_selected_filter :
    n ∈ (c.filter f).selected.toList ↔ n ∈ c.selected.toList ∧ c.Passes f n := by
  unfold Passes
  cases htest : f.test with
  | error e => simp [filter_of_error htest]
  | ok keep => simp [filter_of_ok htest, retain]

lemma shadowed_filter (c : Catalog) (f : Filter) : (c.filter f).shadowed = c.shadowed := by
  rcases filter_eq c f with h | ⟨keep, h⟩ <;> rw [h]
  rfl

lemma passes_filter : (c.filter f).Passes = c.Passes := by
  funext g n
  rw [Passes, full_filter, Passes]

/-! ## Sequences -/

lemma shadowed_filters (c : Catalog) (fs : List Filter) : (c.filters fs).shadowed = c.shadowed := by
  induction fs generalizing c with
  | nil => rfl
  | cons f fs ih => exact (ih (c.filter f)).trans (shadowed_filter c f)

lemma filters_append (c : Catalog) (fs gs : List Filter) :
    c.filters (fs ++ gs) = (c.filters fs).filters gs := List.foldl_append

lemma mem_selected_filters :
    n ∈ (c.filters fs).selected.toList ↔ n ∈ c.selected.toList ∧ ∀ f ∈ fs, c.Passes f n := by
  induction fs generalizing c with
  | nil => simp [filters]
  | cons f fs ih =>
    have hstep : n ∈ ((c.filter f).filters fs).selected.toList ↔ _ := ih
    rw [passes_filter, mem_selected_filter, and_assoc] at hstep
    rw [List.forall_mem_cons]
    exact hstep

/-- Catalogs of one full set are told apart by what is selected. -/
lemma filters_congr (h : ∀ f, f ∈ gs ↔ f ∈ fs) : c.filters gs = c.filters fs := by
  have hselected : (c.filters gs).selected = (c.filters fs).selected := OrdSet.ext_mem fun n => by
    simp only [mem_selected_filters, h]
  have hfull := (full_filters c gs).trans (full_filters c fs).symm
  have hshadowed := (shadowed_filters c gs).trans (shadowed_filters c fs).symm
  revert hselected hfull hshadowed
  cases c.filters gs
  cases c.filters fs
  rintro ⟨⟩ ⟨⟩ ⟨⟩
  rfl

lemma filters_skip (h : f.test = .error e) (fs gs : List Filter) :
    c.filters (fs ++ f :: gs) = c.filters (fs ++ gs) := by
  rw [filters_append, filters_append]
  exact congrArg (fun d => filters d gs) (filter_of_error h (c.filters fs))

/-- **Filters.** A filter fails just if its patterns are malformed. Behind a sequence of filters
those names are selected that were selected before and whose package passes the test of every
filter that did not fail. So the sequence counts as a set, and a filter that fails is as good as
left out. What is looked up in the full set, and the text that saves the catalog, are as before. -/
theorem filters_select (c : Catalog) (fs : List Filter) :
    (∀ (f : Filter) d, f.run d = f.test.map d.retain) ∧
    (∀ n, n ∈ (c.filters fs).selected.toList ↔ n ∈ c.selected.toList ∧
      ∀ f ∈ fs, ∀ keep, f.test = .ok keep → (c.full.get? n).any keep = true) ∧
    (∀ gs, (∀ f, f ∈ gs ↔ f ∈ fs) → c.filters gs = c.filters fs) ∧
    (∀ (f : Filter) e, f.run (c.filters fs) = .error e → c.filters (fs ++ [f]) = c.filters fs ∧
      ∀ gs, c.filters (fs ++ f :: gs) = c.filters (fs ++ gs)) ∧
    (c.filters fs).full = c.full ∧ (c.filters fs).shadowed = c.shadowed ∧
    (∀ n, (c.filters fs).full.get? n = c.full.get? n ∧
      (c.filters fs).shadowedBy n = c.shadowedBy n ∧
      (c.filters fs).fullDependency n = c.fullDependency n) ∧
    (c.filters fs).toJson = c.toJson := by
  have hfull := full_filters c fs
  have hshadowed := shadowed_filters c fs
  refine ⟨fun f d => run_eq d f, fun n => mem_selected_filters, fun gs => filters_congr,
    fun f e hrun => ?_, hfull, hshadowed,
    fun n => ⟨by rw [hfull], by rw [shadowedBy, shadowedBy, hshadowed],
      fullDependency_filters c fs n⟩, ?_⟩
  · have htest : f.test = .error e := by
      rw [run_eq] at hrun
      cases h : f.test with
      | error e' =>
        rw [h] at hrun
        exact congrArg _ (Except.error.inj hrun)
      | ok keep =>
        rw [h] at hrun
        cases hrun
    exact ⟨by simpa using filters_skip htest fs [], fun gs => filters_skip htest fs gs⟩
  · rw [toJson, value, hfull]
    rfl

end Catalog

end AddonAtlas
