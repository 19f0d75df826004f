import AddonAtlas.Proofs.Catalog.Models

/-!
Which of the discovered packages a catalog looks up, and which it keeps aside.

Packages are added in the order of their discovery. The first one of a name goes into the full set
and all others of the name stand behind each other as shadowed, so the two hold the list between
them, and what is found later changes no answer about a name that is there.
-/

namespace AddonAtlas

namespace Catalog

open OrdMap

variable {l : List Package} {p : Package} {n : String}

lemma ofPackages_concat (l : List Package) (p : Package) :
    ofPackages (l ++ [p]) = (ofPackages l).add p := List.foldl_concat ..

/-- A name is in the full set just if some package of the list has it. -/
lemma contains_full_ofPackages :
    (ofPackages l).full.contains n = true ↔ ∃ p ∈ l, p.name = n := by
  rw [OrdMap.contains, get?_full_ofPackages, List.find?_isSome]
  simp

/-- Behind the first package of a name stand the later ones, in their order. -/
lemma shadowedBy_ofPackages (l : List Package) (n : String) :
    (ofPackages l).shadowedBy n = (l.filter fun p => p.name = n).tail := by
  induction l using List.reverseRecOn with
  | nil => rfl
  | append_singleton l p ih =>
    have hnil : l.filter (fun q => q.name = n) = [] ↔ ¬ ∃ q ∈ l, q.name = n := by simp
    rw [ofPackages_concat, add, List.filter_append]
    split
    · rename_i hold
      rw [shadowedBy, List.filter_append, ← shadowedBy, ih]
      by_cases hn : p.name = n
      · have hne : l.filter (fun q => q.name = n) ≠ [] := fun h =>
          hnil.1 h (hn ▸ contains_full_ofPackages.1 hold)
        simp [hn, List.tail_append_of_ne_nil hne]
      · simp [hn]
    · rename_i hnew
      change (ofPackages l).shadowedBy n = _
      rw [ih]
      by_cases hn : p.name = n
      · have h : l.filter (fun q => q.name = n) = [] := hnil.2 fun h =>
          hnew (contains_full_ofPackages.2 (hn ▸ h))
        simp [hn, h]
      · simp [hn]

/-- The full set and the shadowed packages hold the list between them. -/
lemma perm_ofPackages (l : List Package) :
    ((ofPackages l).full.values ++ (ofPackages l).shadowed).Perm l := by
  induction l using List.reverseRecOn with
  | nil => exact .refl _
  | append_singleton l p ih =>
    rw [ofPackages_concat, add]
    split
    · rw [← List.append_assoc]
      exact ih.append_right [p]
    · rename_i hnew
      have hnone : (ofPackages l).full.get? p.name = none := by simpa [OrdMap.contains] using hnew
      have hinsert := (perm_values_insert hnone p).append_right (ofPackages l).shadowed
      exact (hinsert.trans (ih.cons p)).trans (List.perm_append_singleton p l).symm

/-- Shadowed packages keep the order of their discovery. -/
lemma shadowed_sublist (l : List Package) : (ofPackages l).shadowed.Sublist l := by
  induction l using List.reverseRecOn with
  | nil => exact .refl _
  | append_singleton l p ih =>
    rw [ofPackages_concat, add]
    split
    · exact ih.append (.refl [p])
    · exact ih.trans (List.sublist_append_left l [p])

/-- **First found, first kept.** Under each name the full set holds the first package of the list
that has it, and all later ones are shadowed, in the order of the list. The two hold each package
of the list as often as the list does, so none is lost and none is there twice, and the names of
the list are what is selected. Packages that are found later change no answer about a name that is
there. -/
theorem ofPackages_partition (l : List Package) :
    (∀ n, (ofPackages l).full.get? n = l.find? fun p => p.name = n) ∧
    (∀ n, (ofPackages l).shadowedBy n = (l.filter fun p => p.name = n).tail) ∧
    ((ofPackages l).full.values ++ (ofPackages l).shadowed).Perm l ∧
    (ofPackages l).shadowed.Sublist l ∧
    (∀ n, n ∈ (ofPackages l).selected.toList ↔ ∃ p ∈ l, p.name = n) ∧
    ∀ more, ∀ p ∈ l,
      (ofPackages (l ++ more)).full.get? p.name = (ofPackages l).full.get? p.name := by
  refine ⟨get?_full_ofPackages l, shadowedBy_ofPackages l, perm_ofPackages l, shadowed_sublist l,
    fun n => ?_, fun more p hp => ?_⟩
  · rw [unfiltered_ofPackages l n, contains_full_ofPackages]
  · obtain ⟨q, hq⟩ := contains_iff_exists.1 (contains_full_ofPackages.2 ⟨p, hp, rfl⟩)
    rw [hq, get?_full_ofPackages, List.find?_append, ← get?_full_ofPackages, hq, Option.some_or]

/-- Sales in three directories, with stock between them, and the time that reading each took. -/
def salesThrice (t : Float) : List Package := [
  { path := ⟨"addons/sale"⟩, name := "sale", durationSeconds := t },
  { path := ⟨"addons/stock"⟩, name := "stock", durationSeconds := t },
  { path := ⟨"other/sale"⟩, name := "sale", depends := .ofList ["stock"], durationSeconds := t },
  { path := ⟨"old/sale"⟩, name := "sale", durationSeconds := t }]

theorem ofPackages_partition_salesThrice :
    (∃ p ∈ salesThrice 0, p.name = "sale") ∧
    (∀ more, ((ofPackages (salesThrice 0 ++ more)).full.get? "sale").map Package.path =
      some ⟨"addons/sale"⟩) ∧
    ((ofPackages (salesThrice 0)).shadowedBy "sale").map Package.path =
      [⟨"other/sale"⟩, ⟨"old/sale"⟩] := by
  obtain ⟨hfull, hshadowed, -, -, -, hmore⟩ := ofPackages_partition (salesThrice 0)
  have hfirst : { path := ⟨"addons/sale"⟩, name := "sale", durationSeconds := 0 } ∈ salesThrice 0 :=
    List.mem_cons_self
  refine ⟨⟨_, hfirst, rfl⟩, fun more => ?_, ?_⟩
  · rw [hmore more _ hfirst, hfull]
    rfl
  · rw [hshadowed]
    rfl

end Catalog

end AddonAtlas
