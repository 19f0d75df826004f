import AddonAtlas.Proofs.Catalog.Filters
import AddonAtlas.Proofs.Catalog.FullDependency
import AddonAtlas.Proofs.Package.Pieces

/-!
The models of a catalog, put together from the pieces that its packages have.

Merging takes the union of what two pieces extend, and lets the second one have the last word on
links, fields and functions. So the last of the selected packages in the order of names decides, and
since packages of distinct names are selected in this order, it does not matter in which order they
were found.
-/

namespace AddonAtlas

namespace Model

variable {m n : Model}

lemma inherit_merge_comm (h : m.name = n.name) : (m.merge n).inherit = (n.merge m).inherit := by
  rw [merge_eq h, merge_eq h.symm]
  exact OrdSet.union_comm m.inherit n.inherit

lemma merge_of_ne (h : m.name ≠ n.name) : m.merge n = m := if_neg h

end Model

namespace Catalog

open OrdMap

variable {α : Type v} {c d : Catalog} {p q : Package} {l l' : List Package} {n : String}

/-- A look-up finds a value in a selected package, and nothing in selected packages of later names.
-/
def FoundLast (c : Catalog) (look : Package → Option α) (v : α) : Prop :=
  ∃ n ∈ c.selected.toList, (c.full.get? n).bind look = some v ∧
    ∀ n' ∈ c.selected.toList, n < n' → (c.full.get? n').bind look = none

lemma filterMap_packages (c : Catalog) (look : Package → Option α) :
    c.packages.filterMap look = c.selected.toList.filterMap fun n => (c.full.get? n).bind look :=
  List.filterMap_filterMap

lemma getLast?_packages {look : Package → Option α} {v : α} :
    (c.packages.filterMap look).getLast? = some v ↔ c.FoundLast look v := by
  rw [filterMap_packages, getLast?_filterMap_iff (NameSet.sorted c.selected)]
  rfl

/-! ## Aggregation -/

/-- The pieces of a model in the selected packages, in the order of their names. -/
def modelPieces (c : Catalog) (n : String) : List Model :=
  c.packages.filterMap fun p => p.models.get? n

lemma models_eq_gather (c : Catalog) : c.models = gather Model.merge Package.models c.packages := by
  rw [models, gather]
  congr
  funext m e
  exact update_eq_mergeIn rfl (fun _ => rfl) m e.1

lemma get?_models (c : Catalog) (n : String) :
    c.models.get? n = Model.mergeAll (c.modelPieces n) := by
  rw [models_eq_gather, get?_gather]
  rfl

lemma mem_modelPieces {m : Model} :
    m ∈ c.modelPieces n ↔ ∃ p ∈ c.packages, p.models.get? n = some m := List.mem_filterMap

lemma mem_keys_models : n ∈ c.models.keys ↔ ∃ p ∈ c.packages, n ∈ p.models.keys := by
  rw [models_eq_gather, mem_keys_gather]

/-- **What a model is put together from.** -/
structure Aggregates (c : Catalog) (n : String) (m : Model) : Prop where
  name : m.name = some n
  inherit : ∀ x, x ∈ m.inherit.toList ↔
    ∃ p ∈ c.packages, ∃ piece, p.models.get? n = some piece ∧ x ∈ piece.inherit.toList
  inherits : ∀ k v, m.inherits.get? k = some v ↔
    c.FoundLast (fun p => (p.models.get? n).bind fun piece => piece.inherits.get? k) v
  fields : ∀ k v, m.fields.get? k = some v ↔
    c.FoundLast (fun p => (p.models.get? n).bind fun piece => piece.fields.get? k) v
  functions : ∀ k v, m.functions.get? k = some v ↔
    c.FoundLast (fun p => (p.models.get? n).bind fun piece => piece.functions.get? k) v

lemma get?_modelPieces {look : Model → Option α} {v : α} :
    ((c.modelPieces n).filterMap look).getLast? = some v ↔
      c.FoundLast (fun p => (p.models.get? n).bind look) v := by
  rw [modelPieces, List.filterMap_filterMap, getLast?_packages]

lemma aggregates (h : ∀ p ∈ c.packages, p.NamesModels) {m : Model}
    (hm : c.models.get? n = some m) : c.Aggregates n m := by
  have hname : ∀ piece ∈ c.modelPieces n, piece.name = some n := fun piece hpiece => by
    obtain ⟨p, hp, hget⟩ := mem_modelPieces.1 hpiece
    exact h p hp n piece hget
  rw [get?_models] at hm
  refine ⟨(Model.name_covers_mergeAll hname hm).1, fun x => ?_, fun k v => ?_, fun k v => ?_,
    fun k v => ?_⟩
  · rw [Model.mem_inherit_mergeAll hname hm]
    simp only [mem_modelPieces]
    exact ⟨fun ⟨piece, ⟨p, hp, hget⟩, hx⟩ => ⟨p, hp, piece, hget, hx⟩,
      fun ⟨p, hp, piece, hget, hx⟩ => ⟨piece, ⟨p, hp, hget⟩, hx⟩⟩
  · rw [Model.get?_inherits_mergeAll hname hm, get?_modelPieces]
  · rw [Model.get?_mergeAll Model.fields (fun _ _ hn => by rw [Model.merge_eq hn]) hname hm,
      get?_modelPieces]
  · rw [Model.get?_mergeAll Model.functions (fun _ _ hn => by rw [Model.merge_eq hn]) hname hm,
      get?_modelPieces]

/-! ## Orders of discovery -/

/-- The full set holds the first package of each name. -/
lemma get?_full_ofPackages (l : List Package) (n : String) :
    (ofPackages l).full.get? n = l.find? fun p => p.name = n := by
  induction l using List.reverseRecOn with
  | nil => rfl
  | append_singleton l p ih =>
    have hadd : ofPackages (l ++ [p]) = (ofPackages l).add p := List.foldl_concat ..
    rw [hadd, add, List.find?_append, ← ih]
    split
    · rename_i hold
      by_cases hn : p.name = n
      · obtain ⟨q, hq⟩ := contains_iff_exists.1 hold
        rw [← hn, hq, Option.some_or]
      · simp [hn]
    · rename_i hnew
      rw [get?_insert]
      by_cases hn : p.name = n
      · have hnone : (ofPackages l).full.get? n = none := by simpa [contains, hn] using hnew
        simp [hn, hnone]
      · simp [hn, Ne.symm hn]

lemma find?_eq_some_iff_of_nodup (h : (l.map Package.name).Nodup) :
    l.find? (fun p => p.name = n) = some p ↔ p ∈ l ∧ p.name = n := by
  constructor
  · intro hp
    exact ⟨List.mem_of_find?_eq_some hp, by simpa using List.find?_some hp⟩
  · rintro ⟨hp, rfl⟩
    obtain ⟨q, hq⟩ : ∃ q, l.find? (fun q => q.name = p.name) = some q :=
      Option.isSome_iff_exists.1 (List.find?_isSome.2 ⟨p, hp, by simp⟩)
    rw [hq]
    have hname : q.name = p.name := by simpa using List.find?_some hq
    rw [List.inj_on_of_nodup_map h (List.mem_of_find?_eq_some hq) hp hname]

/-- Packages of distinct names make one full set and one selection, in whatever order they come. -/
lemma full_selected_of_perm (hperm : l.Perm l') (hnames : (l.map Package.name).Nodup) :
    (ofPackages l).full = (ofPackages l').full ∧
      (ofPackages l).selected = (ofPackages l').selected := by
  have hfull : (ofPackages l).full = (ofPackages l').full := ext_get? fun n => by
    ext p
    rw [get?_full_ofPackages, get?_full_ofPackages, find?_eq_some_iff_of_nodup hnames,
      find?_eq_some_iff_of_nodup ((hperm.map Package.name).nodup_iff.1 hnames), hperm.mem_iff]
  refine ⟨hfull, OrdSet.ext_mem fun n => ?_⟩
  rw [unfiltered_ofPackages l n, unfiltered_ofPackages l' n, hfull]

/-- What is selected after filters hangs on the full set and on what was selected before. -/
lemma packages_filters_congr (hfull : c.full = d.full) (hselected : c.selected = d.selected)
    (fs : List Filter) : (c.filters fs).packages = (d.filters fs).packages := by
  have hsame : (c.filters fs).selected = (d.filters fs).selected := OrdSet.ext_mem fun n => by
    simp only [mem_selected_filters, Passes, hfull, hselected]
  rw [packages, packages, full_filters, full_filters, hsame, hfull]

/-- **Models of a catalog.** They have the names of the models in the selected packages. Each
extends what any of its pieces extends, and takes each link, field and function from the last
selected package, in the order of names, whose piece has it. They are made from the packages, which
stay as they are, and packages of distinct names may be found in any order. Merging pieces of one
model is associative and idempotent and does not mind the order in what the model extends; pieces
of other models are left out. -/
theorem models_aggregate (c : Catalog) (h : ∀ p ∈ c.packages, p.NamesModels) :
    (∀ n, n ∈ c.models.keys ↔ ∃ p ∈ c.packages, n ∈ p.models.keys) ∧
    (∀ n m, c.models.get? n = some m → c.Aggregates n m) ∧
    (∀ l l' : List Package, l.Perm l' → (l.map Package.name).Nodup → ∀ fs,
      ((ofPackages l).filters fs).models = ((ofPackages l').filters fs).models) ∧
    (∀ a b d : Model,
      a.name = b.name → b.name = d.name → (a.merge b).merge d = a.merge (b.merge d)) ∧
    (∀ a : Model, a.merge a = a) ∧
    (∀ a b : Model, a.name = b.name → (a.merge b).inherit = (b.merge a).inherit) ∧
    ∀ a b : Model, a.name ≠ b.name → a.merge b = a := by
  refine ⟨fun n => mem_keys_models, fun n m => aggregates h, fun l l' hperm hnames fs => ?_,
    fun a b d => Model.merge_assoc, Model.merge_self, fun a b => Model.inherit_merge_comm,
    fun a b => Model.merge_of_ne⟩
  obtain ⟨hfull, hselected⟩ := full_selected_of_perm hperm hnames
  rw [models, models, packages_filters_congr hfull hselected]

/-- A package with partners, all of whose pieces have one field, and the time that reading it took.
-/
def partnersOf (name : String) (inherit : NameSet) (field : Field) (t : Float) : Package where
  path := ⟨name⟩
  name := name
  models := .ofList
    [("res.partner", { name := some "res.partner", inherit, fields := .ofList [("ref", field)] })]
  durationSeconds := t

/-- Partners in two packages. Both declare the field. -/
def partnersTwice (t : Float) : Catalog := .ofPackages [
  partnersOf "sale" (.ofList ["mail.thread"]) ⟨"Char", some "fields.Char()"⟩ t,
  partnersOf "base" .empty ⟨"Text", none⟩ t]

lemma packages_partnersTwice (t : Float) : (partnersTwice t).packages =
    [partnersOf "base" .empty ⟨"Text", none⟩ t,
      partnersOf "sale" (.ofList ["mail.thread"]) ⟨"Char", some "fields.Char()"⟩ t] := by cbv

lemma namesModels_partnersOf (name : String) (inherit : NameSet) (field : Field) (t : Float) :
    (partnersOf name inherit field t).NamesModels := by
  intro n m hm
  obtain ⟨rfl, rfl⟩ := Prod.mk.inj (List.mem_singleton.1 (mem_of_get?_ofList hm))
  rfl

/-- Partners extend what one of their pieces extends, and their field is that of the last package.
-/
lemma models_partnersTwice (t : Float) :
    ((partnersTwice t).models.get? "res.partner").map
      (fun m => (m.inherit.toList, m.fields.get? "ref")) =
        some (["mail.thread"], some ⟨"Char", some "fields.Char()"⟩) := by
  cbv

theorem models_aggregate_partners :
    (∀ p ∈ (partnersTwice 0).packages, p.NamesModels) ∧
    "res.partner" ∈ (partnersTwice 0).models.keys ∧
    ∃ m, (partnersTwice 0).models.get? "res.partner" = some m ∧
      m.inherit.toList = ["mail.thread"] ∧
      m.fields.get? "ref" = some ⟨"Char", some "fields.Char()"⟩ ∧
      (partnersTwice 0).Aggregates "res.partner" m := by
  have hnames : ∀ p ∈ (partnersTwice 0).packages, p.NamesModels := by
    rw [packages_partnersTwice]
    simp only [List.mem_cons, List.not_mem_nil, or_false]
    rintro p (rfl | rfl) <;> exact namesModels_partnersOf _ _ _ _
  obtain ⟨hkeys, haggregates, -⟩ := models_aggregate (partnersTwice 0) hnames
  have hkey : "res.partner" ∈ (partnersTwice 0).models.keys := by
    refine (hkeys _).2 ⟨partnersOf "base" .empty ⟨"Text", none⟩ 0, ?_, List.mem_cons_self⟩
    rw [packages_partnersTwice]
    exact List.mem_cons_self
  obtain ⟨m, hm, hread⟩ := Option.map_eq_some_iff.1 (models_partnersTwice 0)
  obtain ⟨hinherit, hfield⟩ := Prod.mk.inj hread
  exact ⟨hnames, hkey, m, hm, hinherit, hfield, haggregates "res.partner" m hm⟩

end Catalog

end AddonAtlas
