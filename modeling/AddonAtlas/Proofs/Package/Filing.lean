import AddonAtlas.Proofs.Package.Records
import Mathlib.Algebra.Order.BigOperators.Group.List
import Mathlib.Algebra.Order.Group.Nat

/-!
Records filed one after another.

A package keeps views and data records apart, and under each name of a kind it keeps one record,
made of all declarations of this kind and name. Calls, complexity and lines do not depend on the
order of the declarations; what a record extends and which model it is of are what the first one
says.
-/

namespace AddonAtlas

namespace Record

/-- What the declarations of a record give together, in whatever order they come. -/
def tally (r : Record) : NameSet × UInt64 × UInt64 := (r.calls, r.complexity, r.lines)

/-- The complexities and the lines of declarations do not exceed a machine word. -/
def Fits (l : List Record) : Prop :=
  (l.map fun d => d.complexity.toNat).sum < UInt64.size ∧
    (l.map fun d => d.lines.toNat).sum < UInt64.size

variable {r r' : Record} {l l' : List Record}

lemma toNat_sum (l : List UInt64) : l.sum.toNat = (l.map UInt64.toNat).sum % UInt64.size := by
  induction l with
  | nil => rfl
  | cons a l ih =>
    rw [List.sum_cons, UInt64.toNat_add, ih, List.map_cons, List.sum_cons, Nat.add_mod_mod]

lemma toNat_sum_map {f : Record → UInt64} (h : (l.map fun d => (f d).toNat).sum < UInt64.size) :
    (l.map f).sum.toNat = (l.map fun d => (f d).toNat).sum := by
  rw [toNat_sum, List.map_map]
  exact Nat.mod_eq_of_lt h

lemma Joins.toNat_complexity (h : r.Joins l) (hfits : Fits l) :
    r.complexity.toNat = (l.map fun d => d.complexity.toNat).sum := by
  rw [h.complexity, toNat_sum_map hfits.1]

lemma Joins.toNat_lines (h : r.Joins l) (hfits : Fits l) :
    r.lines.toNat = (l.map fun d => d.lines.toNat).sum := by
  rw [h.lines, toNat_sum_map hfits.2]

lemma Joins.tally_eq (h : r.Joins l) (h' : r'.Joins l') (hperm : l.Perm l') :
    r.tally = r'.tally := by
  have hcalls : r.calls = r'.calls := OrdSet.ext_mem fun x => by
    rw [h.calls, h'.calls]
    exact exists_congr fun d => and_congr_left fun _ => hperm.mem_iff
  have hcomplexity : r.complexity = r'.complexity := by
    rw [h.complexity, h'.complexity, (hperm.map _).sum_eq]
  have hlines : r.lines = r'.lines := by
    rw [h.lines, h'.lines, (hperm.map _).sum_eq]
  rw [tally, tally, hcalls, hcomplexity, hlines]

lemma Fits.of_sublist (h : Fits l') (hsub : l.Sublist l') : Fits l :=
  ⟨lt_of_le_of_lt ((hsub.map _).sum_le_sum fun _ _ => Nat.zero_le _) h.1,
    lt_of_le_of_lt ((hsub.map _).sum_le_sum fun _ _ => Nat.zero_le _) h.2⟩

end Record

namespace Package

open Record

/-- A fresh package of a directory with records filed in it. -/
def filed (dir : Path) (rs : List Record) : Package := rs.foldl mergeRecord (ofPath dir)

variable {dir : Path} {rs rs' : List Record} {view : Bool} {n : String} {r : Record}

/-- Under a name stand the declarations of the kind and the name, put together. -/
lemma get?_filed (dir : Path) (rs : List Record) (view : Bool) (n : String) :
    ((filed dir rs).recordMap view).get? n = mergeList Record.merge (declarationsOf rs view n) := by
  have hempty : (ofPath dir).recordMap view = .empty := by cases view <;> rfl
  rw [filed, get?_recordMap_foldl_mergeRecord, hempty]
  rfl

lemma joins_filed (hr : ((filed dir rs).recordMap view).get? n = some r) :
    r.name = n ∧ r.Joins (declarationsOf rs view n) := by
  rw [get?_filed] at hr
  exact joins_mergeList (fun d hd => (mem_declarationsOf.1 hd).2.2) hr

lemma view_of_filed (hr : ((filed dir rs).recordMap view).get? n = some r) : r.view = view := by
  obtain ⟨d, hd, -, -, hview⟩ := (joins_filed hr).2.first
  rw [hview]
  exact (mem_declarationsOf.1 (List.mem_of_mem_head? hd)).2.1

lemma mem_keys_filed :
    n ∈ ((filed dir rs).recordMap view).keys ↔ ∃ r ∈ rs, r.view = view ∧ r.name = n := by
  rw [OrdMap.mem_keys_iff, get?_filed, ← Option.ne_none_iff_exists', Ne, mergeList_eq_none_iff]
  simp only [List.eq_nil_iff_forall_not_mem, mem_declarationsOf, not_forall, not_not]

/-- What stands under a name does not depend on the order, the first declaration aside. -/
lemma tally_filed_perm (dir : Path) (hperm : rs'.Perm rs) (view : Bool) :
    ((filed dir rs').recordMap view).mapValues (fun _ r => r.tally) =
      ((filed dir rs).recordMap view).mapValues fun _ r => r.tally := OrdMap.ext_get? fun n => by
  have hdeclared : (declarationsOf rs' view n).Perm (declarationsOf rs view n) := hperm.filter _
  rw [OrdMap.get?_mapValues, OrdMap.get?_mapValues]
  cases hr' : ((filed dir rs').recordMap view).get? n with
  | none =>
    have hr : ((filed dir rs).recordMap view).get? n = none := by
      rw [get?_filed, mergeList_eq_none_iff] at hr' ⊢
      exact (hr' ▸ hdeclared).nil_eq.symm
    rw [hr]
  | some r' =>
    have hr : ∃ r, ((filed dir rs).recordMap view).get? n = some r := by
      rw [← Option.ne_none_iff_exists', get?_filed, Ne, mergeList_eq_none_iff]
      rintro hnil
      rw [get?_filed, mergeList_eq_none_iff.2 (hnil ▸ hdeclared).eq_nil] at hr'
      cases hr'
    obtain ⟨r, hr⟩ := hr
    rw [hr, Option.map_some, Option.map_some,
      (joins_filed hr').2.tally_eq (joins_filed hr).2 hdeclared]

/-- A kind of records is filed as if there were no records of the other kind. -/
lemma recordMap_filed_of_kind (dir : Path) (rs : List Record) (view : Bool) :
    (filed dir rs).recordMap view =
      (filed dir (rs.filter fun r => r.view == view)).recordMap view := OrdMap.ext_get? fun n => by
  have hkind :
      declarationsOf (rs.filter fun r => r.view == view) view n = declarationsOf rs view n := by
    rw [declarationsOf, declarationsOf, List.filter_filter]
    refine List.filter_congr fun r _ => ?_
    rw [Bool.and_right_comm, Bool.and_self]
  rw [get?_filed, get?_filed, hkind]

/-- **Filing records.** Filed into a fresh package, records make one entry for each kind and name
among them, under the name itself. It has what all declarations of the kind and the name call, the
sums of their complexities and of their lines, exactly where these fit into a word, and what the
first of them extends and is of. So the order of the records changes no key, calls, complexity or
lines, and records of one kind leave those of the other as they are, also where they share a name.
-/
theorem filed_gathers (dir : Path) (rs : List Record)
    (hfits : ∀ view n, Fits (declarationsOf rs view n)) :
    (∀ view, ((filed dir rs).recordMap view).keys.Nodup ∧
      (∀ n, n ∈ ((filed dir rs).recordMap view).keys ↔ ∃ r ∈ rs, r.view = view ∧ r.name = n) ∧
      ∀ n r, ((filed dir rs).recordMap view).get? n = some r →
        r.name = n ∧ r.view = view ∧
        (∃ d, (declarationsOf rs view n).head? = some d ∧ r.inherit = d.inherit ∧
          r.model = d.model) ∧
        (∀ x, x ∈ r.calls.toList ↔ ∃ d ∈ declarationsOf rs view n, x ∈ d.calls.toList) ∧
        r.complexity.toNat = ((declarationsOf rs view n).map fun d => d.complexity.toNat).sum ∧
        r.lines.toNat = ((declarationsOf rs view n).map fun d => d.lines.toNat).sum) ∧
    (∀ rs', rs'.Perm rs → ∀ view,
      ((filed dir rs').recordMap view).keys = ((filed dir rs).recordMap view).keys ∧
      ((filed dir rs').recordMap view).mapValues (fun _ r => (r.calls, r.complexity, r.lines)) =
        ((filed dir rs).recordMap view).mapValues fun _ r => (r.calls, r.complexity, r.lines)) ∧
    ∀ view, (filed dir rs).recordMap view =
      (filed dir (rs.filter fun r => r.view == view)).recordMap view := by
  refine ⟨fun view => ⟨OrdSet.nodup_keys _, fun n => mem_keys_filed, fun n r hr => ?_⟩,
    fun rs' hperm view => ?_, recordMap_filed_of_kind dir rs⟩
  · obtain ⟨hname, hjoins⟩ := joins_filed hr
    obtain ⟨d, hd, hinherit, hmodel, -⟩ := hjoins.first
    exact ⟨hname, view_of_filed hr, ⟨d, hd, hinherit, hmodel⟩, hjoins.calls,
      hjoins.toNat_complexity (hfits view n), hjoins.toNat_lines (hfits view n)⟩
  · have htally := tally_filed_perm dir hperm view
    refine ⟨?_, htally⟩
    -- the keys of a map are those of the map of its tallies
    have hkeys := congrArg OrdMap.keys htally
    simpa [OrdMap.keys, OrdMap.mapValues, Function.comp_def] using hkeys

/-- A view that is declared twice, and a data record of the same name between its declarations. -/
def formRecords : List Record := [
  { name := "sale.form", inherit := some "base.form", calls := .ofList ["sale.button"],
    complexity := 3, lines := 2, view := true },
  { name := "sale.form", model := some "sale.order", complexity := 5, lines := 1 },
  { name := "sale.form", inherit := some "web.form", calls := .ofList ["sale.badge"],
    complexity := 4, lines := 6, view := true }]

theorem filed_gathers_formRecords : (∀ view n, Fits (declarationsOf formRecords view n)) ∧
    ∃ form data, (filed ⟨"sale"⟩ formRecords).views.get? "sale.form" = some form ∧
      (filed ⟨"sale"⟩ formRecords).records.get? "sale.form" = some data ∧
      form.inherit = some "base.form" ∧ form.complexity.toNat = 7 ∧ form.lines.toNat = 8 ∧
      (∀ x, x ∈ form.calls.toList ↔ x = "sale.button" ∨ x = "sale.badge") ∧
      data.model = some "sale.order" ∧ data.complexity.toNat = 5 ∧ data.calls.toList = [] := by
  have hall : Fits formRecords := ⟨by decide, by decide⟩
  have hfits : ∀ view n, Fits (declarationsOf formRecords view n) := fun _ _ =>
    hall.of_sublist List.filter_sublist
  obtain ⟨hfiled, -, -⟩ := filed_gathers ⟨"sale"⟩ formRecords hfits
  obtain ⟨-, hviews, hview⟩ := hfiled true
  obtain ⟨-, hrecords, hrecord⟩ := hfiled false
  obtain ⟨form, hform⟩ := OrdMap.mem_keys_iff.1
    ((hviews "sale.form").2 ⟨_, List.mem_cons_self, rfl, rfl⟩)
  obtain ⟨data, hdata⟩ := OrdMap.mem_keys_iff.1
    ((hrecords "sale.form").2 ⟨_, List.mem_cons_of_mem _ List.mem_cons_self, rfl, rfl⟩)
  obtain ⟨-, -, ⟨d, hd, hinherit, -⟩, hcalls, hcomplexity, hlines⟩ := hview _ _ hform
  obtain ⟨-, -, ⟨e, he, -, hmodel⟩, hnone, hweight, -⟩ := hrecord _ _ hdata
  refine ⟨hfits, form, data, hform, hdata, ?_, hcomplexity, hlines, fun x => ?_, ?_, hweight, ?_⟩
  · rw [hinherit, ← Option.some.inj hd]
  · rw [hcalls]
    simp [declarationsOf, formRecords]
  · rw [hmodel, ← Option.some.inj he]
  · refine List.eq_nil_iff_forall_not_mem.2 fun x hx => ?_
    rw [hnone] at hx
    simp [declarationsOf, formRecords, OrdSet.empty] at hx

end Package

end AddonAtlas
