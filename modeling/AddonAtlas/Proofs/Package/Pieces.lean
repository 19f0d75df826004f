import AddonAtlas.Discovery.Sources
import AddonAtlas.Proofs.Ordered.Gathered

/-!
Models made of pieces.

Several classes of a package may be pieces of one model. Filing them merges all pieces of a name,
and nothing that one of them declares is lost in that; the model has no parents just if none of its
pieces has any. Classes without a name are filed by their identifiers, where a later one takes the
place of an earlier one.
-/

namespace AddonAtlas

namespace Model

/-- A model declares all names that a piece of it declares. What stands under them may come from
another piece. -/
structure Covers (m piece : Model) : Prop where
  inherit : piece.inherit.toList ⊆ m.inherit.toList
  inherits : piece.inherits.keys ⊆ m.inherits.keys
  fields : piece.fields.keys ⊆ m.fields.keys
  functions : piece.functions.keys ⊆ m.functions.keys

/-- A model extends no other one and delegates to none. -/
def FromScratch (m : Model) : Prop := m.inherit.isEmpty = true ∧ m.inherits.isEmpty = true

variable {l m n : Model} {pieces : List Model} {name : String}

lemma Covers.refl (m : Model) : m.Covers m :=
  ⟨List.Subset.refl _, List.Subset.refl _, List.Subset.refl _, List.Subset.refl _⟩

lemma Covers.trans (h : l.Covers m) (h' : m.Covers n) : l.Covers n :=
  ⟨List.Subset.trans h'.inherit h.inherit, List.Subset.trans h'.inherits h.inherits,
    List.Subset.trans h'.fields h.fields, List.Subset.trans h'.functions h.functions⟩

@[simp] lemma fields_adoptInheritName (m : Model) : m.adoptInheritName.fields = m.fields := by
  unfold adoptInheritName
  split <;> rfl

@[simp] lemma inherit_adoptInheritName (m : Model) : m.adoptInheritName.inherit = m.inherit := by
  unfold adoptInheritName
  split <;> rfl

@[simp] lemma inherits_adoptInheritName (m : Model) : m.adoptInheritName.inherits = m.inherits := by
  unfold adoptInheritName
  split <;> rfl

@[simp] lemma functions_adoptInheritName (m : Model) :
    m.adoptInheritName.functions = m.functions := by
  unfold adoptInheritName
  split <;> rfl

/-- A piece keeps the name it has; without one it takes the name of the only model it extends. -/
lemma name_adoptInheritName_eq_some_iff : m.adoptInheritName.name = some name ↔
    m.name = some name ∨ m.name = none ∧ m.inherit.toList = [name] := by
  unfold adoptInheritName
  split
  · rename_i parent hname hinherit
    simp [hname, hinherit]
  · rename_i hother
    refine ⟨.inl, ?_⟩
    rintro (h | ⟨hname, hinherit⟩)
    · exact h
    · exact (hother name hname hinherit).elim

lemma adoptInheritName_of_name (h : m.name = some name) : m.adoptInheritName = m := by
  rw [adoptInheritName, h]

@[simp] lemma adoptInheritName_adoptInheritName (m : Model) :
    m.adoptInheritName.adoptInheritName = m.adoptInheritName := by
  cases hname : m.adoptInheritName.name with
  | some name => exact adoptInheritName_of_name hname
  | none =>
    have hself : m.adoptInheritName = m := by
      unfold adoptInheritName at hname ⊢
      split
      · simp_all
      · rfl
    rw [hself, hself]

@[simp] lemma parents_adoptInheritName (m : Model) : m.adoptInheritName.parents = m.parents := by
  rw [parents, inherit_adoptInheritName, inherits_adoptInheritName, parents]

lemma fromScratch_iff_parents : m.FromScratch ↔ m.parents = [] := by
  rw [FromScratch, parents, List.append_eq_nil_iff, OrdSet.isEmpty_iff, OrdMap.values,
    List.map_eq_nil_iff, OrdMap.isEmpty, List.isEmpty_iff]

lemma covers_adoptInheritName (m : Model) : m.adoptInheritName.Covers m := by
  unfold adoptInheritName
  split
  · exact { Covers.refl m with }
  · exact .refl m

lemma name_merge (m n : Model) : (m.merge n).name = m.name := by
  unfold merge
  split <;> rfl

/-- Pieces of one model are put together part by part. -/
lemma merge_eq (h : m.name = n.name) : m.merge n =
    ⟨m.name, m.inherit.union n.inherit, m.inherits.union n.inherits, m.fields.union n.fields,
      m.functions.union n.functions⟩ := if_pos h

lemma merge_assoc (hlm : l.name = m.name) (hmn : m.name = n.name) :
    (l.merge m).merge n = l.merge (m.merge n) := by
  have hleft : (l.merge m).name = n.name := (name_merge l m).trans (hlm.trans hmn)
  have hright : l.name = (m.merge n).name := hlm.trans (name_merge m n).symm
  rw [merge_eq hleft, merge_eq hright, merge_eq hlm, merge_eq hmn]
  simp only [OrdSet.union_assoc, OrdMap.union_assoc]

lemma merge_self (m : Model) : m.merge m = m := by
  rw [merge_eq rfl, OrdSet.union_self, OrdMap.union_self, OrdMap.union_self, OrdMap.union_self]

lemma covers_merge_left (m n : Model) : (m.merge n).Covers m := by
  unfold merge
  split
  · exact ⟨fun _ hx => OrdSet.mem_union.2 (.inl hx), fun _ hx => OrdMap.mem_keys_union.2 (.inl hx),
      fun _ hx => OrdMap.mem_keys_union.2 (.inl hx), fun _ hx => OrdMap.mem_keys_union.2 (.inl hx)⟩
  · exact .refl m

lemma covers_merge_right (h : m.name = n.name) : (m.merge n).Covers n := by
  rw [merge, if_pos h]
  exact ⟨fun _ hx => OrdSet.mem_union.2 (.inr hx), fun _ hx => OrdMap.mem_keys_union.2 (.inr hx),
    fun _ hx => OrdMap.mem_keys_union.2 (.inr hx), fun _ hx => OrdMap.mem_keys_union.2 (.inr hx)⟩

lemma fromScratch_merge (h : m.name = n.name) :
    (m.merge n).FromScratch ↔ m.FromScratch ∧ n.FromScratch := by
  simp only [FromScratch, merge, if_pos h, OrdSet.isEmpty_union, OrdMap.isEmpty_union]
  exact and_and_and_comm

/-! ## All pieces of a model -/

/-- Put a piece on top of those that are there. -/
def pile (old : Option Model) (piece : Model) : Option Model :=
  some (old.elim piece fun m => m.merge piece)

/-- The pieces of a model, put together in their order. -/
def mergeAll (pieces : List Model) : Option Model := pieces.foldl pile none

lemma mergeAll_concat (pieces : List Model) (m : Model) :
    mergeAll (pieces ++ [m]) = pile (mergeAll pieces) m := mergeList_concat merge pieces m

lemma mergeAll_eq_none_iff : mergeAll pieces = none ↔ pieces = [] := mergeList_eq_none_iff

/-- What holds of a single piece, and goes on to hold when a further piece of the name is merged in,
holds of all pieces put together. -/
lemma mergeAll_induction {P : List Model → Model → Prop} (hsingle : ∀ m, P [m] m)
    (hmerge : ∀ pieces old m, P pieces old → old.name = m.name → P (pieces ++ [m]) (old.merge m))
    (hname : ∀ m ∈ pieces, m.name = some name) {whole : Model}
    (h : mergeAll pieces = some whole) : whole.name = some name ∧ P pieces whole := by
  refine mergeList_induction (P := fun pieces whole => whole.name = some name ∧ P pieces whole)
    (fun m hm => ⟨hname m hm, hsingle m⟩) (fun pieces old m hm hold => ⟨?_, ?_⟩) h
  · exact (name_merge old m).trans hold.1
  · exact hmerge pieces old m hold.2 (hold.1.trans (hname m hm).symm)

/-- Merged pieces of one name keep the name and whatever the pieces declare. -/
lemma name_covers_mergeAll (hname : ∀ m ∈ pieces, m.name = some name) {whole : Model}
    (h : mergeAll pieces = some whole) :
    whole.name = some name ∧ ∀ m ∈ pieces, whole.Covers m := by
  refine mergeAll_induction (P := fun pieces whole => ∀ m ∈ pieces, whole.Covers m)
    (fun m => by simpa using Covers.refl m) (fun pieces old n hcovers hn m hm => ?_) hname h
  rcases List.mem_append.1 hm with hm | hm
  · exact (covers_merge_left old n).trans (hcovers m hm)
  · rw [List.mem_singleton.1 hm]
    exact covers_merge_right hn

/-- A model is made from scratch just if all of its pieces are. -/
lemma fromScratch_mergeAll (hname : ∀ m ∈ pieces, m.name = some name) {whole : Model}
    (h : mergeAll pieces = some whole) :
    whole.FromScratch ↔ ∀ m ∈ pieces, m.FromScratch := by
  refine (mergeAll_induction
    (P := fun pieces whole => whole.FromScratch ↔ ∀ m ∈ pieces, m.FromScratch)
    (fun m => by simp) (fun pieces old n hpieces hn => ?_) hname h).2
  rw [fromScratch_merge hn, hpieces]
  simp only [List.mem_append, List.mem_singleton, or_imp, forall_and, forall_eq]

/-- A model extends what any of its pieces extends. -/
lemma mem_inherit_mergeAll (hname : ∀ m ∈ pieces, m.name = some name) {whole : Model}
    (h : mergeAll pieces = some whole) {x : String} :
    x ∈ whole.inherit.toList ↔ ∃ m ∈ pieces, x ∈ m.inherit.toList := by
  refine (mergeAll_induction
    (P := fun pieces whole => x ∈ whole.inherit.toList ↔ ∃ m ∈ pieces, x ∈ m.inherit.toList)
    (fun m => by simp) (fun pieces old m hpieces hn => ?_) hname h).2
  simp only [merge_eq hn, OrdSet.mem_union, hpieces, List.mem_append, List.mem_singleton,
    or_and_right, exists_or, exists_eq_left]

/-- In a part that merging unites, the last piece that has a key gives its value. -/
lemma get?_mergeAll {α : Type v} (part : Model → NameMap α)
    (hpart : ∀ m n : Model, m.name = n.name → part (m.merge n) = (part m).union (part n))
    (hname : ∀ m ∈ pieces, m.name = some name) {whole : Model} (h : mergeAll pieces = some whole)
    (k : String) : (part whole).get? k = (pieces.filterMap fun m => (part m).get? k).getLast? := by
  have hlast (m : Model) : ([m].filterMap fun m => (part m).get? k).getLast? = (part m).get? k := by
    cases hm : (part m).get? k <;> simp [hm]
  refine (mergeAll_induction (P := fun pieces whole => (part whole).get? k =
      (pieces.filterMap fun m => (part m).get? k).getLast?)
    (fun m => (hlast m).symm) (fun pieces old n hpieces hn => ?_) hname h).2
  rw [hpart old n hn, OrdMap.get?_union, hpieces, List.filterMap_append, List.getLast?_append,
    hlast]

/-- A link of a model is the one that the last piece with this link gives. -/
lemma get?_inherits_mergeAll (hname : ∀ m ∈ pieces, m.name = some name) {whole : Model}
    (h : mergeAll pieces = some whole) (link : String) :
    whole.inherits.get? link = (pieces.filterMap fun m => m.inherits.get? link).getLast? :=
  get?_mergeAll inherits (fun _ _ hn => by rw [merge_eq hn]) hname h link

end Model

namespace Package

open Model

/-- Each model of a package stands under its own name. -/
def NamesModels (p : Package) : Prop := ∀ n m, p.models.get? n = some m → m.name = some n

/-- The pieces of a model among some classes. -/
def piecesOf (cs : List (String × Model)) (n : String) : List Model :=
  (cs.map fun c => c.2.adoptInheritName).filter fun m => m.name = some n

/-- The classes without a name that have an identifier. -/
def unnamedOf (cs : List (String × Model)) (i : String) : List Model :=
  ((cs.filter fun c => c.1 = i).map fun c => c.2.adoptInheritName).filter fun m => m.name = none

/-- File a class among models. -/
def fileModel (models : NameMap Model) (c : String × Model) : NameMap Model :=
  match c.2.adoptInheritName.name with
  | some n => models.insert n ((models.get? n).elim c.2.adoptInheritName fun old =>
      old.merge c.2.adoptInheritName)
  | none => models

/-- File a class among those without a name. -/
def fileClass (classes : NameMap Model) (c : String × Model) : NameMap Model :=
  match c.2.adoptInheritName.name with
  | some _ => classes
  | none => classes.insert c.1 c.2.adoptInheritName

lemma models_addClass (p : Package) (c : String × Model) :
    (p.addClass c).models = fileModel p.models c := by
  unfold addClass fileModel
  dsimp only
  cases c.2.adoptInheritName.name with
  | none => rfl
  | some n =>
    dsimp only [mergeModel, OrdMap.update]
    cases p.models.get? n <;> rfl

lemma classes_addClass (p : Package) (c : String × Model) :
    (p.addClass c).classes = fileClass p.classes c := by
  unfold addClass fileClass
  dsimp only
  cases c.2.adoptInheritName.name <;> rfl

lemma models_foldl_addClass (p : Package) (cs : List (String × Model)) :
    (cs.foldl addClass p).models = cs.foldl fileModel p.models :=
  (List.foldl_hom Package.models fun p c => (models_addClass p c).symm).symm

lemma classes_foldl_addClass (p : Package) (cs : List (String × Model)) :
    (cs.foldl addClass p).classes = cs.foldl fileClass p.classes :=
  (List.foldl_hom Package.classes fun p c => (classes_addClass p c).symm).symm

variable {cs : List (String × Model)} {c : String × Model} {m : Model} {n i : String}

lemma mem_piecesOf : m ∈ piecesOf cs n ↔
    (∃ c ∈ cs, c.2.adoptInheritName = m) ∧ m.name = some n := by
  simp [piecesOf]

lemma piecesOf_concat (cs : List (String × Model)) (c : String × Model) (n : String) :
    piecesOf (cs ++ [c]) n = if c.2.adoptInheritName.name = some n
      then piecesOf cs n ++ [c.2.adoptInheritName] else piecesOf cs n := by
  rw [piecesOf, List.map_append, List.filter_append, piecesOf]
  split
  · simp [*]
  · simp [*]

lemma unnamedOf_concat (cs : List (String × Model)) (c : String × Model) (i : String) :
    unnamedOf (cs ++ [c]) i = if c.1 = i ∧ c.2.adoptInheritName.name = none
      then unnamedOf cs i ++ [c.2.adoptInheritName] else unnamedOf cs i := by
  rw [unnamedOf, List.filter_append, List.map_append, List.filter_append, unnamedOf]
  by_cases hi : c.1 = i <;> by_cases hn : c.2.adoptInheritName.name = none <;> simp [hi, hn]

/-- A class is filed on top of what stands under its name, and changes nothing else. -/
lemma get?_fileModel (models : NameMap Model) (c : String × Model) (n : String) :
    (fileModel models c).get? n = if c.2.adoptInheritName.name = some n
      then pile (models.get? n) c.2.adoptInheritName else models.get? n := by
  unfold fileModel
  split
  · rename_i k hk
    rw [OrdMap.get?_insert, hk]
    by_cases hn : n = k
    · rw [if_pos hn, if_pos (congrArg some hn.symm), ← hn, pile]
    · rw [if_neg hn, if_neg fun h => hn (Option.some.inj h).symm]
  · rename_i hnone
    rw [hnone, if_neg (by simp)]

/-- Under a name stand all pieces of the model, put together. -/
lemma get?_foldl_fileModel (cs : List (String × Model)) (n : String) :
    (cs.foldl fileModel .empty).get? n = mergeAll (piecesOf cs n) := by
  induction cs using List.reverseRecOn with
  | nil => rfl
  | append_singleton cs c ih =>
    rw [List.foldl_concat, piecesOf_concat, get?_fileModel, ih]
    split
    · rw [mergeAll_concat]
    · rfl

/-- Under an identifier stands the last class without a name that has it. -/
lemma get?_foldl_fileClass (cs : List (String × Model)) (i : String) :
    (cs.foldl fileClass .empty).get? i = (unnamedOf cs i).getLast? := by
  induction cs using List.reverseRecOn with
  | nil => rfl
  | append_singleton cs c ih =>
    rw [List.foldl_concat, unnamedOf_concat, fileClass]
    split
    · rename_i k hk
      rw [hk, if_neg (by simp), ih]
    · rename_i hnone
      rw [OrdMap.get?_insert, hnone]
      by_cases hi : i = c.1
      · rw [if_pos hi, if_pos ⟨hi.symm, rfl⟩, List.getLast?_concat]
      · rw [if_neg hi, if_neg fun h => hi h.1.symm, ih]

end Package

end AddonAtlas
