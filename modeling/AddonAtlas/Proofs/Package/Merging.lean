import AddonAtlas.Proofs.Files.PathSets
import AddonAtlas.Proofs.Package.Pieces

/-!
Two discoveries of a package put together.

Merging goes by keys: names in sets, keys of files, names of models and, in a model that both have,
the names of what it declares. Under a key either both sides agree, or one of them has the last
word, so merging is idempotent and associative as a whole because it is so under each key.
-/

namespace AddonAtlas

namespace Model

variable {m n : Model}

/-- What two pieces of a model give together. The second one has the last word. -/
structure Unites (m n whole : Model) : Prop where
  name : whole.name = m.name
  inherit : ∀ x, x ∈ whole.inherit.toList ↔ x ∈ m.inherit.toList ∨ x ∈ n.inherit.toList
  inherits : ∀ k, whole.inherits.get? k = (n.inherits.get? k).or (m.inherits.get? k)
  fields : ∀ k, whole.fields.get? k = (n.fields.get? k).or (m.fields.get? k)
  functions : ∀ k, whole.functions.get? k = (n.functions.get? k).or (m.functions.get? k)

lemma unites_merge (h : m.name = n.name) : m.Unites n (m.merge n) := by
  rw [merge_eq h]
  exact ⟨rfl, fun x => OrdSet.mem_union, OrdMap.get?_union _ _, OrdMap.get?_union _ _,
    OrdMap.get?_union _ _⟩

/-! ## Maps of models -/

/-- Models under their own names. -/
def Named (models : NameMap Model) : Prop := ∀ k m, models.get? k = some m → m.name = some k

/-- Put the models of a second map on those of a first one. -/
def mergeMaps (first second : NameMap Model) : NameMap Model :=
  second.entries.foldl (OrdMap.mergeIn merge) first

variable {a b c : NameMap Model}

lemma get?_mergeMaps (a b : NameMap Model) (k : String) :
    (mergeMaps a b).get? k = Option.merge merge (a.get? k) (b.get? k) := by
  rw [mergeMaps, OrdMap.get?_foldl_mergeIn, OrdMap.valuesAt_entries]
  cases a.get? k <;> cases b.get? k <;> rfl

lemma Named.mergeMaps (ha : Named a) (hb : Named b) : Named (mergeMaps a b) := by
  intro k m hm
  rw [get?_mergeMaps] at hm
  cases hak : a.get? k with
  | none =>
    rw [hak, Option.merge_none_left] at hm
    exact hb k m hm
  | some x =>
    cases hbk : b.get? k with
    | none =>
      rw [hak, hbk, Option.merge_none_right] at hm
      exact ha k m (hak.trans hm)
    | some y =>
      rw [hak, hbk] at hm
      obtain rfl := Option.some.inj hm
      exact (name_merge x y).trans (ha k x hak)

lemma mergeMaps_self (a : NameMap Model) : mergeMaps a a = a := OrdMap.ext_get? fun k => by
  rw [get?_mergeMaps]
  cases a.get? k with
  | none => rfl
  | some m => exact congrArg some (merge_self m)

lemma mergeMaps_assoc (ha : Named a) (hb : Named b) (hc : Named c) :
    mergeMaps (mergeMaps a b) c = mergeMaps a (mergeMaps b c) := OrdMap.ext_get? fun k => by
  simp only [get?_mergeMaps]
  cases hak : a.get? k with
  | none => simp only [Option.merge_none_left]
  | some x =>
    cases hbk : b.get? k with
    | none => simp only [Option.merge_none_left, Option.merge_none_right]
    | some y =>
      cases hck : c.get? k with
      | none => simp only [Option.merge_none_right]
      | some z =>
        have hxy : x.name = y.name := (ha k x hak).trans (hb k y hbk).symm
        have hyz : y.name = z.name := (hb k y hbk).trans (hc k z hck).symm
        exact congrArg some (merge_assoc hxy hyz)

end Model

namespace Package

open Model

variable {p q r : Package}

/-- Models stand under their own names, and files under their own keys. The latter is so of every
set of paths that insertions make. -/
structure WellKeyed (p : Package) : Prop where
  models : p.NamesModels
  files : p.files.Keyed

/-- What two discoveries of a package give together. All but five fields is as in the first one. -/
structure Unites (p q whole : Package) : Prop where
  shared : ∀ k m n, p.models.get? k = some m → q.models.get? k = some n →
    ∃ w, whole.models.get? k = some w ∧ m.Unites n w
  kept : ∀ k, q.models.get? k = none → whole.models.get? k = p.models.get? k
  added : ∀ k, p.models.get? k = none → whole.models.get? k = q.models.get? k
  depends : ∀ x, x ∈ whole.depends.toList ↔ x ∈ p.depends.toList ∨ x ∈ q.depends.toList
  imports : ∀ x, x ∈ whole.imports.toList ↔ x ∈ p.imports.toList ∨ x ∈ q.imports.toList
  refers : ∀ x, x ∈ whole.refers.toList ↔ x ∈ p.refers.toList ∨ x ∈ q.refers.toList
  files : ∀ f, whole.files.contains f = true ↔ p.files.contains f = true ∨ q.files.contains f = true
  rest : whole = { p with
    models := whole.models
    depends := whole.depends
    imports := whole.imports
    refers := whole.refers
    files := whole.files }

lemma foldl_mergeModel (p : Package) (l : List (String × Model)) :
    l.foldl (fun p e => p.mergeModel e.2 e.1) p =
      { p with models := l.foldl (OrdMap.mergeIn merge) p.models } := by
  induction l generalizing p with
  | nil => rfl
  | cons e l ih =>
    obtain ⟨k, m⟩ := e
    have hmodels : (p.mergeModel m k).models = OrdMap.mergeIn merge p.models (k, m) := by
      dsimp only [mergeModel]
      exact OrdMap.update_eq_mergeIn rfl (fun _ => rfl) p.models k
    rw [List.foldl_cons, ih, hmodels, List.foldl_cons]
    rfl

/-- All that merging does. -/
lemma mergeFrom_eq (p q : Package) : p.mergeFrom q = { p with
    models := mergeMaps p.models q.models
    depends := p.depends.union q.depends
    imports := p.imports.union q.imports
    refers := p.refers.union q.refers
    files := PathSet.union p.files q.files } := by
  rw [mergeFrom, foldl_mergeModel, mergeMaps]

lemma WellKeyed.mergeFrom (hp : p.WellKeyed) (hq : q.WellKeyed) : (p.mergeFrom q).WellKeyed := by
  rw [mergeFrom_eq]
  exact ⟨Named.mergeMaps hp.models hq.models, hp.files.union q.files⟩

lemma unites_mergeFrom (hp : p.WellKeyed) (hq : q.WellKeyed) : p.Unites q (p.mergeFrom q) := by
  rw [mergeFrom_eq]
  refine ⟨fun k m n hm hn => ⟨m.merge n, ?_, ?_⟩, fun k hk => ?_, fun k hk => ?_,
    fun x => OrdSet.mem_union, fun x => OrdSet.mem_union, fun x => OrdSet.mem_union,
    fun f => hq.files.contains_union, rfl⟩
  · rw [get?_mergeMaps, hm, hn]
    rfl
  · exact unites_merge ((hp.models k m hm).trans (hq.models k n hn).symm)
  · rw [get?_mergeMaps, hk, Option.merge_none_right]
  · rw [get?_mergeMaps, hk, Option.merge_none_left]

lemma mergeFrom_self (hp : p.WellKeyed) : p.mergeFrom p = p := by
  rw [mergeFrom_eq, mergeMaps_self, OrdSet.union_self, OrdSet.union_self, OrdSet.union_self,
    hp.files.union_self]

lemma mergeFrom_assoc (hp : p.WellKeyed) (hq : q.WellKeyed) (hr : r.WellKeyed) :
    (p.mergeFrom q).mergeFrom r = p.mergeFrom (q.mergeFrom r) := by
  simp only [mergeFrom_eq, mergeMaps_assoc hp.models hq.models hr.models, OrdSet.union_assoc,
    hq.files.union_assoc hr.files]

/-- **Merging discoveries.** What two discoveries of a package depend on, import, refer to and have
read is united. A model that both have becomes the model made of both, in which the second one has
the last word on links, fields and functions; all other models are taken over, and nothing else
changes. To merge a discovery again, or a package with itself, changes nothing, and of three
discoveries the last two may be put together first. -/
theorem mergeFrom_unites (p q r : Package) (hp : p.WellKeyed) (hq : q.WellKeyed)
    (hr : r.WellKeyed) :
    p.Unites q (p.mergeFrom q) ∧
    (p.mergeFrom q).WellKeyed ∧
    (p.mergeFrom q).mergeFrom q = p.mergeFrom q ∧
    p.mergeFrom p = p ∧
    (p.mergeFrom q).mergeFrom r = p.mergeFrom (q.mergeFrom r) := by
  refine ⟨unites_mergeFrom hp hq, hp.mergeFrom hq, ?_, mergeFrom_self hp, mergeFrom_assoc hp hq hr⟩
  rw [mergeFrom_assoc hp hq hq, mergeFrom_self hq]

/-- A discovery of a package with one model, one dependency and one file. -/
def saleWith (model : String) (field : Field) (dependency : String) (file : Path) : Package where
  path := ⟨"sale"⟩
  name := "sale"
  models := .ofList [(model, { name := some model, fields := .ofList [("ref", field)] })]
  depends := .ofList [dependency]
  files := PathSet.ofList [file]

lemma wellKeyed_saleWith (model : String) (field : Field) (dependency : String) (file : Path) :
    (saleWith model field dependency file).WellKeyed := by
  refine ⟨fun k m hm => ?_, PathSet.keyed_empty.insertMany [file]⟩
  obtain ⟨rfl, rfl⟩ := Prod.mk.inj (List.mem_singleton.1 (OrdMap.mem_of_get?_ofList hm))
  rfl

/-- Two discoveries declare a field of partners, and a third one has another model. -/
theorem mergeFrom_unites_sales :
    ∃ p q r : Package, p.WellKeyed ∧ q.WellKeyed ∧ r.WellKeyed ∧
      (∃ w, (p.mergeFrom q).models.get? "res.partner" = some w ∧
        w.fields.get? "ref" = some ⟨"Text", none⟩) ∧
      (∀ x, x ∈ (p.mergeFrom q).depends.toList ↔ x = "base" ∨ x = "mail") ∧
      (p.mergeFrom q).files.contains ⟨"models/partner.py"⟩ = true ∧
      (p.mergeFrom q).mergeFrom q = p.mergeFrom q ∧
      (p.mergeFrom q).mergeFrom r = p.mergeFrom (q.mergeFrom r) := by
  let p := saleWith "res.partner" ⟨"Char", none⟩ "base" ⟨"models/partner.py"⟩
  let q := saleWith "res.partner" ⟨"Text", none⟩ "mail" ⟨"models/ref.py"⟩
  let r := saleWith "sale.order" ⟨"Char", none⟩ "base" ⟨"models/order.py"⟩
  have hp : p.WellKeyed := wellKeyed_saleWith _ _ _ _
  have hq : q.WellKeyed := wellKeyed_saleWith _ _ _ _
  have hr : r.WellKeyed := wellKeyed_saleWith _ _ _ _
  obtain ⟨hunites, -, hagain, -, hassoc⟩ := mergeFrom_unites p q r hp hq hr
  refine ⟨p, q, r, hp, hq, hr, ?_, fun x => ?_, ?_, hagain, hassoc⟩
  · obtain ⟨w, hw, hfields⟩ := hunites.shared "res.partner" _ _ rfl rfl
    exact ⟨w, hw, hfields.fields "ref"⟩
  · rw [hunites.depends]
    simp [p, q, saleWith]
  · exact (hunites.files _).2 (.inl (PathSet.contains_insertMany.2 (.inl List.mem_cons_self)))

end Package

end AddonAtlas
