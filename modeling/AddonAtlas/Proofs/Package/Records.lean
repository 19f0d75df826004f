import AddonAtlas.Package.Basic
import AddonAtlas.Proofs.Ordered.Gathered
import Mathlib.Data.UInt

/-!
Records made of declarations.

A package may declare a record several times. What the first declaration says it is and extends
stays; the later ones add what they call, and their complexity and lines. A record has room for one
target, so a later target is dropped.
-/

namespace AddonAtlas

namespace Record

/-- A record is put together from declarations of it. -/
structure Joins (r : Record) (l : List Record) : Prop where
  name : ∀ d ∈ l, d.name = r.name
  first : ∃ d, l.head? = some d ∧ r.inherit = d.inherit ∧ r.model = d.model ∧ r.view = d.view
  calls : ∀ x, x ∈ r.calls.toList ↔ ∃ d ∈ l, x ∈ d.calls.toList
  complexity : r.complexity = (l.map Record.complexity).sum
  lines : r.lines = (l.map Record.lines).sum

variable {r d : Record} {l : List Record} {n : String}

lemma name_merge (old r : Record) : (old.merge r).name = old.name := by
  unfold merge
  split <;> rfl

lemma calls_merge (old r : Record) : old.calls.toList ⊆ (old.merge r).calls.toList := by
  unfold merge
  split
  · exact fun x hx => OrdSet.mem_union.2 (.inl hx)
  · exact List.Subset.refl _

lemma joins_single (r : Record) : r.Joins [r] where
  name := by simp
  first := ⟨r, rfl, rfl, rfl, rfl⟩
  calls := by simp
  complexity := by simp
  lines := by simp

lemma Joins.merge (h : r.Joins l) (hname : r.name = d.name) : (r.merge d).Joins (l ++ [d]) := by
  obtain ⟨x, hx, hfirst⟩ := h.first
  rw [Record.merge, if_pos hname]
  refine ⟨?_, ⟨x, by rw [List.head?_append, hx]; rfl, hfirst⟩, fun y => ?_, ?_, ?_⟩
  · simpa [or_imp, forall_and, hname] using h.name
  · simp [h.calls, or_and_right, exists_or]
  · simp [h.complexity]
  · simp [h.lines]

/-- Declarations of one name are put together into a record of this name. -/
lemma joins_mergeList (hname : ∀ d ∈ l, d.name = n) (h : mergeList merge l = some r) :
    r.name = n ∧ r.Joins l := by
  refine mergeList_induction (P := fun l r => r.name = n ∧ r.Joins l)
    (fun d hd => ⟨hname d hd, joins_single d⟩) (fun l' old d hd hold => ⟨?_, ?_⟩) h
  · exact (name_merge old d).trans hold.1
  · exact hold.2.merge (hold.1.trans (hname d hd).symm)

end Record

namespace Package

open Record

/-- Each view of a package stands under its own name. -/
def NamesViews (p : Package) : Prop := ∀ n r, p.views.get? n = some r → r.name = n

/-- The views of a package, or its data records. -/
def recordMap (p : Package) (view : Bool) : NameMap Record := if view then p.views else p.records

lemma get?_fileRecord (m : NameMap Record) (r : Record) (k : String) :
    (fileRecord m r).get? k =
      if k = r.name then some (((m.get? k).map fun old => old.merge r).getD r) else m.get? k := by
  rw [fileRecord, OrdMap.update, OrdMap.get?_insert]
  split
  · rename_i hk
    rw [hk]
    cases m.get? r.name <;> rfl
  · rfl

lemma recordMap_mergeRecord (p : Package) (r : Record) (view : Bool) :
    (p.mergeRecord r).recordMap view =
      if r.view = view then fileRecord (p.recordMap view) r else p.recordMap view := by
  cases hr : r.view <;> cases view <;> simp [mergeRecord, recordMap, hr]

variable {p : Package} {rs : List Record} {r : Record} {n : String}

/-- The declarations of a view, or of a data record, in a list, in their order. -/
def declarationsOf (rs : List Record) (view : Bool) (n : String) : List Record :=
  rs.filter fun r => r.view == view && r.name == n

lemma mem_declarationsOf {view : Bool} :
    r ∈ declarationsOf rs view n ↔ r ∈ rs ∧ r.view = view ∧ r.name = n := by
  simp [declarationsOf]

lemma recordMap_mergeRecord_eq_mergeIn (p : Package) (r : Record) (view : Bool) :
    (p.mergeRecord r).recordMap view = if (r.view == view) = true
      then OrdMap.mergeIn Record.merge (p.recordMap view) (r.name, r) else p.recordMap view := by
  have hfile : fileRecord (p.recordMap view) r =
      OrdMap.mergeIn Record.merge (p.recordMap view) (r.name, r) :=
    OrdMap.update_eq_mergeIn rfl (fun _ => rfl) (p.recordMap view) r.name
  rw [recordMap_mergeRecord, hfile]
  simp only [beq_iff_eq]

/-- Under a name stands what stood there before, with all declarations of the kind and the name put
together behind it. -/
lemma get?_recordMap_foldl_mergeRecord (p : Package) (rs : List Record) (view : Bool) (n : String) :
    ((rs.foldl mergeRecord p).recordMap view).get? n =
      mergeList Record.merge (((p.recordMap view).get? n).toList ++ declarationsOf rs view n) := by
  have hmap : (rs.foldl mergeRecord p).recordMap view =
      ((rs.filter fun r => r.view == view).map fun r => (r.name, r)).foldl
        (OrdMap.mergeIn Record.merge) (p.recordMap view) := by
    rw [List.foldl_map, List.foldl_filter]
    exact (List.foldl_hom (fun p => recordMap p view)
      fun p r => (recordMap_mergeRecord_eq_mergeIn p r view).symm).symm
  have hvalues : OrdMap.valuesAt n ((rs.filter fun r => r.view == view).map fun r => (r.name, r)) =
      declarationsOf rs view n := by
    simp [OrdMap.valuesAt, declarationsOf, List.filter_map, Function.comp_def, Bool.and_comm,
      beq_eq_decide]
  rw [hmap, OrdMap.get?_foldl_mergeIn, hvalues]

/-- The declarations of a view: what a package has already, and further ones in their order. -/
def viewDeclarations (p : Package) (rs : List Record) (n : String) : List Record :=
  (p.views.get? n).toList ++ rs.filter fun r => r.view && r.name == n

lemma get?_views_foldl_mergeRecord (p : Package) (rs : List Record) (n : String) :
    (rs.foldl mergeRecord p).views.get? n = mergeList Record.merge (p.viewDeclarations rs n) := by
  have hkind : declarationsOf rs true n = rs.filter fun r => r.view && r.name == n := by
    simp only [declarationsOf, beq_true]
  rw [viewDeclarations, ← hkind]
  exact get?_recordMap_foldl_mergeRecord p rs true n

lemma name_of_mem_viewDeclarations (h : p.NamesViews) {d : Record}
    (hd : d ∈ p.viewDeclarations rs n) : d.name = n := by
  rcases List.mem_append.1 hd with hd | hd
  · exact h n d (by simpa using hd)
  · simpa using (Bool.and_eq_true_iff.1 (List.mem_filter.1 hd).2).2

/-- Merging declarations into a package keeps its views under their names, and makes each of them of
all its declarations. -/
lemma joins_foldl_mergeRecord (h : p.NamesViews)
    (hr : (rs.foldl mergeRecord p).views.get? n = some r) :
    r.name = n ∧ r.Joins (p.viewDeclarations rs n) := by
  rw [get?_views_foldl_mergeRecord] at hr
  exact joins_mergeList (fun d hd => name_of_mem_viewDeclarations h hd) hr

end Package

end AddonAtlas
