import AddonAtlas.Proofs.Catalog.Saturation
import Mathlib.Order.Bounds.Defs

/-!
Packages that install themselves, as a least closed set.

A package that installs itself may come in as soon as all that it declares is there. Packages that
may come in do not hinder each other, so whoever lets them in, one by one or many at a time, ends
with the same names: the least set with the first names in it that no further package may enter.
-/

open Relation

namespace AddonAtlas.Catalog

variable {c : Catalog} {V W X : NameSet} {S : Set String} {n : String}

/-- A set of names that each package of the full set that installs itself belongs to once all that
it declares does. -/
def Settled (c : Catalog) (S : Set String) : Prop :=
  ∀ p ∈ c.full.values, p.autoInstall = true → (∀ d ∈ p.depends.toList, d ∈ S) → p.name ∈ S

/-- A package may come in: it installs itself, all that it declares is there, and it is not. -/
structure MayEnter (c : Catalog) (V : NameSet) (p : Package) : Prop where
  mem : p ∈ c.full.values
  auto : p.autoInstall = true
  new : p.name ∉ V.toList
  depends : ∀ d ∈ p.depends.toList, d ∈ V.toList

/-- Some packages come in together, in whatever order and number. -/
def Round (c : Catalog) (V W : NameSet) : Prop :=
  ∃ batch : List Package, batch ≠ [] ∧ (∀ p ∈ batch, c.MayEnter V p) ∧
    W = V.insertMany (batch.map Package.name)

/-! ## Rounds in any order -/

lemma Round.subset (h : c.Round V W) (hn : n ∈ V.toList) : n ∈ W.toList := by
  obtain ⟨batch, -, -, rfl⟩ := h
  exact OrdSet.mem_insertMany.2 (.inl hn)

lemma rounds_subset (h : ReflTransGen c.Round V W) (hn : n ∈ V.toList) : n ∈ W.toList := by
  induction h with
  | refl => exact hn
  | tail _ hround ih => exact hround.subset ih

/-- A round stays inside every settled set that it begins in. -/
lemma Round.inside (hS : c.Settled S) (h : c.Round V W) (hV : ∀ n ∈ V.toList, n ∈ S) :
    ∀ n ∈ W.toList, n ∈ S := by
  obtain ⟨batch, -, henter, rfl⟩ := h
  intro n hn
  rcases OrdSet.mem_insertMany.1 hn with hn | hn
  · exact hV n hn
  · obtain ⟨p, hp, rfl⟩ := List.mem_map.1 hn
    have hmay := henter p hp
    exact hS p hmay.mem hmay.auto fun d hd => hV d (hmay.depends d hd)

lemma rounds_inside (hS : c.Settled S) (h : ReflTransGen c.Round V W)
    (hV : ∀ n ∈ V.toList, n ∈ S) : ∀ n ∈ W.toList, n ∈ S := by
  induction h with
  | refl => exact hV
  | tail _ hround ih => exact hround.inside hS ih

/-- The packages that install themselves and are not there yet. -/
def absent (c : Catalog) (V : NameSet) : List Package :=
  c.autoInstalled.filter fun p => !V.contains p.name

lemma mem_absent {p : Package} : p ∈ c.absent V ↔
    p ∈ c.full.values ∧ p.autoInstall = true ∧ p.name ∉ V.toList := by
  simp only [absent, autoInstalled, List.mem_filter, Bool.not_eq_true', ← Bool.not_eq_true,
    OrdSet.contains_iff, and_assoc]

lemma Round.length_absent_lt (h : c.Round V W) : (c.absent W).length < (c.absent V).length := by
  obtain ⟨batch, hne, henter, hW⟩ := id h
  obtain ⟨p, hp⟩ := List.exists_mem_of_ne_nil batch hne
  have hmay := henter p hp
  have habsent : p ∈ c.absent V := mem_absent.2 ⟨hmay.mem, hmay.auto, hmay.new⟩
  have hentered : p.name ∈ W.toList := by
    rw [hW]
    exact OrdSet.mem_insertMany.2 (.inr (List.mem_map_of_mem hp))
  -- what is absent later was absent before, and `p` no longer is
  have hfilter : c.absent W = (c.absent V).filter fun q => !W.contains q.name := by
    unfold absent
    rw [List.filter_filter]
    refine List.filter_congr fun q _ => ?_
    have hsub : V.contains q.name = true → W.contains q.name = true := by
      simpa using h.subset
    cases hq : V.contains q.name <;> simp_all
  rw [hfilter]
  exact List.length_filter_lt_length_iff_exists.2 ⟨p, habsent, by simpa using hentered⟩

/-- No run of rounds goes on for ever. -/
lemma wellFounded_round (c : Catalog) : WellFounded fun W V => c.Round V W :=
  Subrelation.wf (fun h => h.length_absent_lt)
    (InvImage.wf (fun V => (c.absent V).length) wellFounded_lt)

/-! ## The rounds that are made -/

lemma isReady_iff {p : Package} : isReady V p = true ↔
    p.name ∉ V.toList ∧ ∀ d ∈ p.depends.toList, d ∈ V.toList := by
  simp [isReady, OrdSet.isSubset, OrdSet.all, ← Bool.not_eq_true]

lemma mayEnter_of_isReady {p : Package} (hp : p ∈ c.autoInstalled) (h : isReady V p = true) :
    c.MayEnter V p := by
  obtain ⟨hmem, hauto⟩ := List.mem_filter.1 hp
  obtain ⟨hnew, hdepends⟩ := isReady_iff.1 h
  exact ⟨hmem, hauto, hnew, hdepends⟩

lemma rounds_expandAutoInstall (V added : NameSet) {l : List Package} (hl : l ⊆ c.autoInstalled) :
    ReflTransGen c.Round V (expandAutoInstall V added l).1 := by
  fun_induction expandAutoInstall V added l with
  | case1 V added l _ => exact .refl
  | case2 V added l hready names ih =>
    have hround : c.Round V (V.insertMany names) := by
      refine ⟨ready V l, hready, fun p hp => ?_, rfl⟩
      obtain ⟨hmem, hp⟩ := List.mem_filter.1 hp
      exact mayEnter_of_isReady (hl hmem) hp
    have hrest : waiting V l ⊆ c.autoInstalled :=
      List.Subset.trans (List.filter_sublist).subset hl
    exact .head hround (ih hrest)

/-- In the end no package may come in, if each that was not waited for is there. -/
lemma settled_expandAutoInstall (V added : NameSet) {l : List Package}
    (hl : ∀ p ∈ c.autoInstalled, p ∈ l ∨ p.name ∈ V.toList) :
    c.Settled {n | n ∈ (expandAutoInstall V added l).1.toList} := by
  fun_induction expandAutoInstall V added l with
  | case1 V added l hnone =>
    intro p hp hauto hdepends
    by_contra hnew
    have hwaits : p ∈ l := (hl p (List.mem_filter.2 ⟨hp, hauto⟩)).resolve_right hnew
    have hready : p ∈ ready V l := List.mem_filter.2 ⟨hwaits, isReady_iff.2 ⟨hnew, hdepends⟩⟩
    rw [hnone] at hready
    cases hready
  | case2 V added l hready names ih =>
    refine ih fun p hp => ?_
    rcases hl p hp with hmem | hthere
    · cases hp : isReady V p with
      | true =>
        have hname : p.name ∈ names := List.mem_map_of_mem (List.mem_filter.2 ⟨hmem, hp⟩)
        exact .inr (OrdSet.mem_insertMany.2 (.inr hname))
      | false => exact .inl (List.mem_filter.2 ⟨hmem, by simp [hp]⟩)
    · exact .inr (OrdSet.mem_insertMany.2 (.inl hthere))

/-- The names that are there in the end. -/
def installed (c : Catalog) (V : NameSet) : NameSet :=
  (expandAutoInstall V .empty c.autoInstalled).1

lemma rounds_installed (c : Catalog) (V : NameSet) : ReflTransGen c.Round V (c.installed V) :=
  rounds_expandAutoInstall V .empty (List.Subset.refl _)

lemma settled_installed (c : Catalog) (V : NameSet) :
    c.Settled {n | n ∈ (c.installed V).toList} :=
  settled_expandAutoInstall V .empty fun _ hp => .inl hp

/-- Rounds in any order lead on to the same names. -/
lemma installed_of_rounds (h : ReflTransGen c.Round V W) : c.installed W = c.installed V := by
  refine OrdSet.ext_mem fun n => ⟨fun hn => ?_, fun hn => ?_⟩
  · have hW := rounds_inside (settled_installed c V) h fun m hm =>
      rounds_subset (rounds_installed c V) hm
    exact rounds_inside (settled_installed c V) (rounds_installed c W) hW n hn
  · have hV : ∀ m ∈ V.toList, m ∈ (c.installed W).toList := fun m hm =>
      rounds_subset (rounds_installed c W) (rounds_subset h hm)
    exact rounds_inside (settled_installed c W) (rounds_installed c V) hV n hn

/-- **Self-installation is a least closed set.** The names that are there in the end are the least
set that has the first ones and is settled, and those that are said to be added are the ones that
were not there at first. Letting packages in by any other rounds ends as well, and from wherever
such rounds have led, further ones lead to the same names and to no others. -/
theorem expandAutoInstall_least (c : Catalog) (V : NameSet) :
    IsLeast {S : Set String | (∀ n ∈ V.toList, n ∈ S) ∧ c.Settled S}
      {n | n ∈ (expandAutoInstall V .empty c.autoInstalled).1.toList} ∧
    (∀ n, n ∈ (expandAutoInstall V .empty c.autoInstalled).2.toList ↔
      n ∈ (expandAutoInstall V .empty c.autoInstalled).1.toList ∧ n ∉ V.toList) ∧
    (WellFounded fun W V => c.Round V W) ∧
    ∀ W, ReflTransGen c.Round V W →
      ReflTransGen c.Round W (expandAutoInstall V .empty c.autoInstalled).1 ∧
      ((∀ X, ¬ c.Round W X) → W = (expandAutoInstall V .empty c.autoInstalled).1) := by
  refine ⟨⟨⟨fun n => rounds_subset (rounds_installed c V), settled_installed c V⟩, ?_⟩,
    fun n => ?_, wellFounded_round c, fun W hW => ?_⟩
  · rintro S ⟨hV, hS⟩ n hn
    exact rounds_inside hS (rounds_installed c V) hV n hn
  · constructor
    · intro hn
      have hnew : n ∉ V.toList := by
        rcases mem_expandAutoInstall_added V .empty c.autoInstalled hn with hempty | ⟨hnew, -⟩
        · simp [OrdSet.empty] at hempty
        · exact hnew
      exact ⟨(mem_expandAutoInstall V c.autoInstalled).2 (.inr hn), hnew⟩
    · rintro ⟨hn, hnew⟩
      exact ((mem_expandAutoInstall V c.autoInstalled).1 hn).resolve_left hnew
  · have hon : ReflTransGen c.Round W (c.installed V) :=
      installed_of_rounds hW ▸ rounds_installed c W
    refine ⟨hon, fun hlast => ?_⟩
    rcases hon.cases_head with heq | ⟨X, hround, -⟩
    · exact heq
    · exact absurd hround (hlast X)

end AddonAtlas.Catalog
