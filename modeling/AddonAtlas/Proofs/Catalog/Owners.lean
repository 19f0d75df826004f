import AddonAtlas.Proofs.Catalog.Declared
import AddonAtlas.Proofs.Package.Pieces
import Mathlib.Data.List.Permutation
import Mathlib.Data.String.Basic

/-!
Owners of models in the dependency report.

A package that extends a model uses the owner of the model: a package that defines it from scratch,
without parents. If several packages do, the last one in the order of names counts for all others,
also for those that define the model themselves or depend on another package that does.
-/

namespace AddonAtlas

namespace Package

/-- A package defines a model from scratch. -/
def Defines (p : Package) (model : String) : Prop :=
  ∃ m, p.models.get? model = some m ∧ m.FromScratch

/-- A package has a model that extends another one or delegates to it. -/
def Extends (p : Package) (model : String) : Prop :=
  ∃ m ∈ p.models.values, model ∈ m.parents

lemma extends_iff {p : Package} {model : String} :
    p.Extends model ↔ model ∈ p.models.values.flatMap Model.parents := List.mem_flatMap.symm

end Package

namespace Catalog

open OrdMap

/-- A package of the full set defines a model from scratch, and none with a later name does. -/
structure Owns (c : Catalog) (owner model : String) : Prop where
  defines : ∃ p, c.full.get? owner = some p ∧ p.Defines model
  last : ∀ n p, c.full.get? n = some p → p.Defines model → n ≤ owner

variable {c : Catalog} {p q : Package} {owner model n d : String}

lemma Owns.unique {other : String} (h : c.Owns owner model) (h' : c.Owns other model) :
    owner = other := by
  obtain ⟨p, hp, hdefines⟩ := h.defines
  obtain ⟨q, hq, hdefines'⟩ := h'.defines
  exact le_antisymm (h'.last _ p hp hdefines) (h.last _ q hq hdefines')

/-- Where the values do not fall, the value at a key is the greatest one that stands there. -/
lemma get?_ofList_of_sorted {l : List (String × String)} (h : l.Pairwise fun d e => d.2 ≤ e.2)
    {k v : String} : (ofList l).get? k = some v ↔ (k, v) ∈ l ∧ ∀ w, (k, w) ∈ l → w ≤ v := by
  induction l using List.reverseRecOn with
  | nil => simp [ofList]
  | append_singleton l e ih =>
    obtain ⟨hl, -, hlast⟩ := List.pairwise_append.1 h
    rw [ofList_concat, get?_insert]
    by_cases hk : k = e.1
    · subst hk
      rw [if_pos rfl, Option.some_inj]
      constructor
      · rintro rfl
        refine ⟨by simp, fun w hw => ?_⟩
        rcases List.mem_append.1 hw with hw | hw
        · exact hlast _ hw e List.mem_cons_self
        · rw [← congrArg Prod.snd (List.mem_singleton.1 hw)]
      · rintro ⟨hv, hgreatest⟩
        have hle := hgreatest e.2 (by simp)
        rcases List.mem_append.1 hv with hv | hv
        · exact le_antisymm hle (hlast _ hv e List.mem_cons_self)
        · rw [← congrArg Prod.snd (List.mem_singleton.1 hv)]
    · have hmem (w : String) : (k, w) ∈ l ++ [e] ↔ (k, w) ∈ l := by
        rw [List.mem_append, List.mem_singleton, or_iff_left]
        exact fun h => hk (congrArg Prod.fst h)
      rw [if_neg hk, ih hl]
      simp only [hmem]

/-! ## The table of owners -/

/-- The models that packages define from scratch, with the names of these packages. -/
def definitions (c : Catalog) : List (String × String) :=
  c.full.values.flatMap fun p =>
    (p.models.entries.filter fun e => e.2.inherit.isEmpty && e.2.inherits.isEmpty).map fun e =>
      (e.1, p.name)

lemma mem_definitions (h : c.WellKeyed) :
    (model, owner) ∈ c.definitions ↔ ∃ p, c.full.get? owner = some p ∧ p.Defines model := by
  simp only [definitions, List.mem_flatMap, mem_values_iff, List.mem_map, List.mem_filter,
    Prod.mk.injEq, Bool.and_eq_true, Package.Defines, Model.FromScratch]
  constructor
  · rintro ⟨p, ⟨n, hp⟩, ⟨k, m⟩, ⟨hm, hscratch⟩, rfl, rfl⟩
    obtain rfl := h.name hp
    exact ⟨p, hp, m, get?_eq_some_iff.2 hm, hscratch⟩
  · rintro ⟨p, hp, m, hm, hscratch⟩
    exact ⟨p, ⟨owner, hp⟩, (model, m), ⟨get?_eq_some_iff.1 hm, hscratch⟩, rfl, h.name hp⟩

/-- Definitions stand in the order of the names of their packages. -/
lemma sorted_definitions (h : c.WellKeyed) : c.definitions.Pairwise fun d e => d.2 ≤ e.2 := by
  have hnames : c.full.values.Pairwise fun p q => p.name < q.name := by
    rw [values, List.pairwise_map]
    refine c.full.ordered.imp_of_mem fun {d e} hd he hlt => ?_
    rw [h.name (get?_eq_some_iff.2 hd), h.name (get?_eq_some_iff.2 he)]
    exact compareOfLessAndEq_eq_lt.1 hlt
  refine List.pairwise_flatMap.2 ⟨fun p _ => ?_, hnames.imp fun hlt d hd e he => ?_⟩
  · exact List.pairwise_map.2 (List.pairwise_of_forall fun _ _ => le_refl _)
  · obtain ⟨_, -, rfl⟩ := List.mem_map.1 hd
    obtain ⟨_, -, rfl⟩ := List.mem_map.1 he
    exact hlt.le

lemma WellKeyed.get?_owners_iff (h : c.WellKeyed) :
    c.owners.get? model = some owner ↔ c.Owns owner model := by
  have htable : c.owners = ofList c.definitions := rfl
  rw [htable, get?_ofList_of_sorted (sorted_definitions h)]
  simp only [mem_definitions h]
  exact ⟨fun ⟨hdefines, hlast⟩ => ⟨hdefines, fun n p hp hn => hlast n ⟨p, hp, hn⟩⟩,
    fun howns => ⟨howns.defines, fun n ⟨p, hp, hn⟩ => howns.last n p hp hn⟩⟩

/-- A model that some package defines from scratch has an owner. -/
lemma WellKeyed.exists_owner (h : c.WellKeyed) (hp : c.full.get? n = some p)
    (hdefines : p.Defines model) : ∃ owner, c.Owns owner model := by
  have hmem := (mem_definitions h).2 ⟨p, hp, hdefines⟩
  obtain ⟨owner, howner⟩ := mem_keys_iff.1 (mem_keys_ofList.2 ⟨n, hmem⟩)
  exact ⟨owner, h.get?_owners_iff.1 howner⟩

/-! ## Usage -/

/-- A package uses what it imports and refers to, and the owners of models that it extends. -/
lemma WellKeyed.mem_used (h : c.WellKeyed) {x : String} :
    x ∈ (usedBy c.owners p).toList ↔ (x ∈ p.imports.toList ∨ x ∈ p.refers.toList) ∨
      ∃ model, p.Extends model ∧ c.Owns x model := by
  rw [mem_usedBy]
  simp only [h.get?_owners_iff]
  refine or_congr_right ⟨?_, ?_⟩
  · rintro ⟨m, hm, parent, hparent, howns⟩
    exact ⟨parent, ⟨m, hm, hparent⟩, howns⟩
  · rintro ⟨parent, ⟨m, hm, hparent⟩, howns⟩
    exact ⟨m, hm, parent, hparent, howns⟩

/-- A package makes another one miss, unless it is a dependency, the base package or itself. -/
def Foreign (c : Catalog) (p : Package) (n : String) : Prop :=
  n ∉ (c.fullDependency p.name).toList ∧ n ≠ basePackage ∧ n ≠ p.name

/-- Extending a model makes a package miss another one: the owner of the model. -/
def Contributes (c : Catalog) (p : Package) (model n : String) : Prop :=
  c.Owns n model ∧ c.Foreign p n

lemma WellKeyed.mem_missing_iff (h : c.WellKeyed) {x : String} :
    x ∈ (c.usage c.owners p).missing.toList ↔
      (x ∈ p.imports.toList ∨ x ∈ p.refers.toList) ∧ c.Foreign p x ∨
        ∃ model, p.Extends model ∧ c.Contributes p model x := by
  rw [mem_missing, h.mem_used, or_and_right]
  refine or_congr_right ⟨?_, ?_⟩
  · rintro ⟨⟨model, hextends, howns⟩, hforeign⟩
    exact ⟨model, hextends, howns, hforeign⟩
  · rintro ⟨model, hextends, howns, hforeign⟩
    exact ⟨⟨model, hextends, howns⟩, hforeign⟩

/-- An owned model contributes its owner, if this is one that the package misses. -/
lemma Owns.contributes_iff (h : c.Owns owner model) {x : String} :
    c.Contributes p model x ↔ x = owner ∧ c.Foreign p owner := by
  constructor
  · rintro ⟨hx, hforeign⟩
    obtain rfl := hx.unique h
    exact ⟨rfl, hforeign⟩
  · rintro ⟨rfl, hforeign⟩
    exact ⟨h, hforeign⟩

/-! ## Filters -/

lemma owns_filters {fs : List Filter} : (c.filters fs).Owns owner model ↔ c.Owns owner model := by
  have hfull := full_filters c fs
  constructor
  · rintro ⟨hdefines, hlast⟩
    exact ⟨hfull ▸ hdefines, hfull ▸ hlast⟩
  · rintro ⟨hdefines, hlast⟩
    exact ⟨hfull.symm ▸ hdefines, hfull.symm ▸ hlast⟩

lemma foreign_filters {fs : List Filter} : (c.filters fs).Foreign p n ↔ c.Foreign p n := by
  simp only [Foreign, fullDependency_filters]

/-- **Owners.** In the report, a selected package misses what it imports or refers to and the owners
of the models that it extends, but for its dependencies, the base package and itself. A model that
some package defines from scratch has an owner, and extending it contributes just this name. So it
contributes none if the package or a dependency defines the model and no package with a later name
does. -/
theorem missing_iff_contributes (l : List Package) (fs : List Filter) {p : Package}
    (hp : p ∈ ((ofPackages l).filters fs).packages) :
    ∃ entry, ((ofPackages l).filters fs).dependencyReport.get? p.name = some entry ∧
      (∀ x, x ∈ entry.missing.toList ↔
        (x ∈ p.imports.toList ∨ x ∈ p.refers.toList) ∧ (ofPackages l).Foreign p x ∨
          ∃ model, p.Extends model ∧ (ofPackages l).Contributes p model x) ∧
      ∀ model n q, (ofPackages l).full.get? n = some q → q.Defines model →
        (∃ owner, (ofPackages l).Owns owner model ∧ n ≤ owner ∧ ∀ x,
          (ofPackages l).Contributes p model x ↔ x = owner ∧ (ofPackages l).Foreign p owner) ∧
        ((n = p.name ∨ n ∈ ((ofPackages l).fullDependency p.name).toList) →
          (∀ v r, (ofPackages l).full.get? v = some r → r.Defines model → v ≤ n) →
          ∀ x, ¬ (ofPackages l).Contributes p model x) := by
  have h := wellKeyed_filters_ofPackages l fs
  refine ⟨_, h.get?_dependencyReport hp, fun x => ?_, fun model n q hq hdefines => ⟨?_, ?_⟩⟩
  · simp only [h.mem_missing_iff, Contributes, owns_filters, foreign_filters]
  · obtain ⟨owner, howner⟩ := (wellKeyed_ofPackages l).exists_owner hq hdefines
    exact ⟨owner, howner, howner.last n q hq hdefines, fun x => howner.contributes_iff⟩
  · intro hn hlast x hx
    have howner : (ofPackages l).Owns n model := ⟨⟨q, hq, hdefines⟩, hlast⟩
    obtain ⟨-, hclosure, -, hself⟩ := howner.contributes_iff.1 hx
    exact hn.elim hself hclosure

/-! ### A model that two packages define -/

/-- A package that defines a model and extends it, and the time that reading it took. -/
def saleOrders (t : Float) : Package :=
  { path := ⟨"sale"⟩
    name := "sale"
    models := .ofList [
      ("sale.line", { name := some "sale.line", inherit := .ofList ["sale.order"] }),
      ("sale.order", { name := some "sale.order" })]
    durationSeconds := t }

/-- Another package that defines the model. -/
def zetaOrders (t : Float) : Package :=
  { path := ⟨"zeta"⟩
    name := "zeta"
    models := .ofList [("sale.order", { name := some "sale.order" })]
    durationSeconds := t }

lemma packages_orders (t : Float) :
    (ofPackages [saleOrders t, zetaOrders t]).packages = [saleOrders t, zetaOrders t] := by cbv

lemma owner_orders (t : Float) :
    (ofPackages [saleOrders t, zetaOrders t]).owners.get? "sale.order" = some "zeta" := by cbv

lemma fullDependency_orders (t : Float) :
    ((ofPackages [saleOrders t, zetaOrders t]).fullDependency "sale").toList = [] := by cbv

lemma saleOrders_mem (t : Float) :
    saleOrders t ∈ (ofPackages [saleOrders t, zetaOrders t]).packages := by
  rw [packages_orders]
  exact List.mem_cons_self

lemma extends_saleOrders (t : Float) {model : String} :
    (saleOrders t).Extends model ↔ model = "sale.order" := by
  have hparents : (saleOrders t).models.values.flatMap Model.parents = ["sale.order"] := by cbv
  rw [Package.extends_iff, hparents, List.mem_singleton]

lemma defines_saleOrders (t : Float) : (saleOrders t).Defines "sale.order" :=
  ⟨{ name := some "sale.order" }, by cbv, rfl, rfl⟩

theorem missing_iff_contributes_orders :
    saleOrders 0 ∈ (ofPackages [saleOrders 0, zetaOrders 0]).packages ∧
    ∃ entry, (ofPackages [saleOrders 0, zetaOrders 0]).dependencyReport.get? "sale" = some entry ∧
      ∀ x, x ∈ entry.missing.toList ↔
        (x ∈ ([] : List String) ∨ x ∈ ([] : List String)) ∧
            (ofPackages [saleOrders 0, zetaOrders 0]).Foreign (saleOrders 0) x ∨
          ∃ model, (saleOrders 0).Extends model ∧
            (ofPackages [saleOrders 0, zetaOrders 0]).Contributes (saleOrders 0) model x := by
  obtain ⟨entry, hentry, hmissing, -⟩ :=
    missing_iff_contributes [saleOrders 0, zetaOrders 0] [] (saleOrders_mem 0)
  exact ⟨saleOrders_mem 0, entry, hentry, hmissing⟩

/-- It is not so that a package misses nothing on account of models that it or a dependency defines:
another package that defines the model too may count as the owner. -/
theorem not_missing_empty_of_defines : ¬ ∀ (l : List Package) (p : Package) (entry : Usage),
    p ∈ (ofPackages l).packages → p.imports = .empty → p.refers = .empty →
    (∀ model, p.Extends model → ∃ n q,
      (n = p.name ∨ n ∈ ((ofPackages l).fullDependency p.name).toList) ∧
        (ofPackages l).full.get? n = some q ∧ q.Defines model) →
    (ofPackages l).dependencyReport.get? p.name = some entry → entry.missing.toList = [] := by
  intro h
  have hkeyed := wellKeyed_ofPackages [saleOrders 0, zetaOrders 0]
  have hp := saleOrders_mem 0
  have hnone := h [saleOrders 0, zetaOrders 0] (saleOrders 0) _ hp rfl rfl
    (fun model hmodel => ⟨"sale", saleOrders 0, .inl rfl, (hkeyed.mem_packages.1 hp).1,
      (extends_saleOrders 0).1 hmodel ▸ defines_saleOrders 0⟩)
    (hkeyed.get?_dependencyReport hp)
  have hzeta : "zeta" ∈ ((ofPackages [saleOrders 0, zetaOrders 0]).usage
      (ofPackages [saleOrders 0, zetaOrders 0]).owners (saleOrders 0)).missing.toList := by
    refine hkeyed.mem_missing_iff.2
      (.inr ⟨"sale.order", (extends_saleOrders 0).2 rfl, ?_, ?_, by decide, ?_⟩)
    · exact hkeyed.get?_owners_iff.1 (owner_orders 0)
    · change "zeta" ∉ ((ofPackages [saleOrders 0, zetaOrders 0]).fullDependency "sale").toList
      rw [fullDependency_orders]
      exact List.not_mem_nil
    · change "zeta" ≠ "sale"
      decide
  rw [hnone] at hzeta
  cases hzeta

end Catalog

end AddonAtlas
