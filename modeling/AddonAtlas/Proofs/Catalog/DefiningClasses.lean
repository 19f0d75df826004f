import AddonAtlas.Proofs.Catalog.FullDependency
import AddonAtlas.Proofs.Catalog.Owners
import AddonAtlas.Proofs.Discovery.Classes

/-!
Classes that define a model, and the package that counts as its owner.

A package defines a model from scratch just if all of its classes for the model are without
parents. So one class that reopens the model hides the class that defines it, and packages that
extend the model do not use the package that does.
-/

namespace AddonAtlas

open AddonAtlas.Path

namespace Package

open Model

variable {p : Package} {cs : List (String × Model)} {n : String}

lemma DeclaredBy.defines_iff (h : p.DeclaredBy cs) :
    p.Defines n ↔ piecesOf cs n ≠ [] ∧ ∀ m ∈ piecesOf cs n, m.FromScratch := by
  rw [Defines, h.models n]
  constructor
  · rintro ⟨whole, hwhole, hscratch⟩
    refine ⟨fun hnone => ?_, (fromScratch_mergeAll name_of_mem_piecesOf hwhole).1 hscratch⟩
    rw [mergeAll_eq_none_iff.2 hnone] at hwhole
    cases hwhole
  · rintro ⟨hne, hscratch⟩
    obtain ⟨whole, hwhole⟩ := Option.ne_none_iff_exists'.1 (mt mergeAll_eq_none_iff.1 hne)
    exact ⟨whole, hwhole, (fromScratch_mergeAll name_of_mem_piecesOf hwhole).2 hscratch⟩

end Package

namespace Catalog

open OrdMap Package

variable {l : List Package} {fs : List Filter} {cs : Package → List (String × Model)}
  {p r : Package} {model n : String}

lemma mem_of_get?_ofPackages (h : (ofPackages l).full.get? n = some p) : p ∈ l := by
  induction l using List.reverseRecOn with
  | nil => simp [ofPackages] at h
  | append_singleton l q ih =>
    rw [ofPackages, List.foldl_concat, add] at h
    split at h
    · exact List.mem_append_left _ (ih h)
    · rw [get?_insert] at h
      split at h
      · obtain rfl := Option.some.inj h
        simp
      · exact List.mem_append_left _ (ih h)

/-- Packages that come from directories, with the classes of their sources. -/
def Assembled (l : List Package) (cs : Package → List (String × Model)) : Prop :=
  ∀ p ∈ l, ∃ s dir, IsName s.discovery.entryPoint ∧ Site.Declares s dir p (cs p)

/-- A package has a class that defines a model without parents, and no other package of the full
set has one. -/
structure OnlyDefiner (c : Catalog) (cs : Package → List (String × Model)) (p : Package)
    (model : String) : Prop where
  full : c.full.get? p.name = some p
  defining : ∃ m ∈ piecesOf (cs p) model, m.FromScratch
  others : ∀ n q, c.full.get? n = some q → n ≠ p.name →
    ∀ m ∈ piecesOf (cs q) model, ¬ m.FromScratch

lemma Assembled.declaredBy (h : Assembled l cs) (hp : (ofPackages l).full.get? n = some p) :
    p.DeclaredBy (cs p) := by
  obtain ⟨s, dir, hname, hdeclares⟩ := h p (mem_of_get?_ofPackages hp)
  exact hdeclares.declaredBy hname

/-- The only definer owns the model just if none of its classes gives the model parents. -/
lemma OnlyDefiner.owns_iff (h : (ofPackages l).OnlyDefiner cs p model) (hcs : Assembled l cs) :
    (ofPackages l).Owns n model ↔
      n = p.name ∧ ∀ m ∈ piecesOf (cs p) model, m.FromScratch := by
  have hdefines := (hcs.declaredBy h.full).defines_iff (n := model)
  have honly {v : String} {q : Package} (hq : (ofPackages l).full.get? v = some q)
      (hdef : q.Defines model) : v = p.name := by
    by_contra hne
    obtain ⟨hpieces, hscratch⟩ := (hcs.declaredBy hq).defines_iff.1 hdef
    obtain ⟨m, hm⟩ := List.exists_mem_of_ne_nil _ hpieces
    exact h.others v q hq hne m hm (hscratch m hm)
  constructor
  · rintro ⟨⟨q, hq, hdef⟩, -⟩
    obtain rfl := honly hq hdef
    obtain rfl : q = p := Option.some.inj (hq.symm.trans h.full)
    exact ⟨rfl, (hdefines.1 hdef).2⟩
  · rintro ⟨rfl, hscratch⟩
    obtain ⟨m, hm, -⟩ := h.defining
    refine ⟨⟨p, h.full, hdefines.2 ⟨List.ne_nil_of_mem hm, hscratch⟩⟩, fun v q hq hdef => ?_⟩
    rw [honly hq hdef]

/-- Who extends the model of an only definer uses it for this model if it owns the model, or for
another reason. -/
lemma OnlyDefiner.mem_used (h : (ofPackages l).OnlyDefiner cs p model) (hcs : Assembled l cs)
    (hextends : r.Extends model) :
    p.name ∈ (usedBy (ofPackages l).owners r).toList ↔
      (∀ m ∈ piecesOf (cs p) model, m.FromScratch) ∨
        (p.name ∈ r.imports.toList ∨ p.name ∈ r.refers.toList) ∨
        ∃ other, other ≠ model ∧ r.Extends other ∧ (ofPackages l).Owns p.name other := by
  rw [(wellKeyed_ofPackages l).mem_used]
  constructor
  · rintro (hdirect | ⟨other, hother, howns⟩)
    · exact .inr (.inl hdirect)
    · by_cases hne : other = model
      · subst hne
        exact .inl ((h.owns_iff hcs).1 howns).2
      · exact .inr (.inr ⟨other, hne, hother, howns⟩)
  · rintro (hscratch | hdirect | ⟨other, -, hother, howns⟩)
    · exact .inr ⟨model, hextends, (h.owns_iff hcs).2 ⟨rfl, hscratch⟩⟩
    · exact .inl hdirect
    · exact .inr ⟨other, hother, howns⟩

/-- **Defining classes.** A selected package that extends a model which one package alone defines in
a class without parents uses this package just if no further class of it gives the model parents,
or if the package is used for another reason: it is imported or referred to, or owns another model
that is extended. -/
theorem used_iff_of_onlyDefiner (l : List Package) (fs : List Filter)
    (cs : Package → List (String × Model)) (hcs : Assembled l cs) {p r : Package} {model : String}
    (hp : (ofPackages l).OnlyDefiner cs p model)
    (hr : r ∈ ((ofPackages l).filters fs).packages) (hextends : r.Extends model) :
    ∃ entry, ((ofPackages l).filters fs).dependencyReport.get? r.name = some entry ∧
      (p.name ∈ entry.used.toList ↔ (∀ m ∈ piecesOf (cs p) model, m.FromScratch) ∨
        (p.name ∈ r.imports.toList ∨ p.name ∈ r.refers.toList) ∨
        ∃ other, other ≠ model ∧ r.Extends other ∧ (ofPackages l).Owns p.name other) := by
  refine ⟨_, (wellKeyed_filters_ofPackages l fs).get?_dependencyReport hr, ?_⟩
  rw [owners_filters]
  exact hp.mem_used hcs hextends

/-! ### A model that its package reopens -/

section

open Site

/-- A package that defines a model and reopens it, and another one that extends the model. -/
def ordersTree : FileTree :=
  (((({} : FileTree).addFile ["sale", "__manifest__.py"] hello.toUTF8).addFile
    ["sale", "__init__.py"] ("class Order(models.Model):\n    _name = 'sale.order'\n\n" ++
      "class OrderMore(models.Model):\n    _inherit = 'sale.order'\n").toUTF8).addFile
    ["web", "__manifest__.py"] hello.toUTF8).addFile
    ["web", "__init__.py"] "class Order(models.Model):\n    _inherit = 'sale.order'\n".toUTF8

/-- A package of one source that imports nothing. -/
lemma exists_declares_leaf {t : FileTree} (text : String) (classes : List ClassOutline)
    (h : HasManifest t n hello)
    (hfile : t.isDirectoryAt [n, "__init__.py"] = false ∧
      t.files.get? [n, "__init__.py"] = some text.toUTF8)
    (hsize : 1 ≤ t.files.size) (houtline : outline text = some ([], classes)) :
    ∃ p cs, (codeSite t).Declares ⟨n⟩ p cs ∧ cs.map ClassOutline.of = classes ∧ p.name = n ∧
      p.imports = .empty ∧ p.refers = .empty := by
  have htext := h.readText? (k := "__init__.py") (by decide) hfile
  obtain ⟨u, hu, himports, hclasses⟩ := exists_readSource htext houtline
  have hdescribed := HasManifest.readManifests (s := codeSite t) rfl rfl h readManifest_hello
  have hnew : (described n []).files.contains ((Path.mk n).join "__init__.py") = false := by
    rw [(path_files_readManifests hdescribed).2]
    rfl
  have hrun := QueueRun.leaf ((Path.mk n).join "__init__.py") hnew hu himports
  obtain ⟨digest, hdeclares⟩ :=
    h.declares hrun (by simp; omega) (FileTree.isFile_of_readText? htext)
  have hcs : (codeSite t).classesIn [(Path.mk n).join "__init__.py"] = u.classes := by
    simp [classesIn, unitsOf, hu, Except.toOption]
  rw [hcs] at hdeclares
  refine ⟨_, _, hdeclares, hclasses, ?_⟩
  obtain ⟨models, classes, hadd⟩ := exists_addSource
    ((described n []).withFiles ((described n []).files.insert ((Path.mk n).join "__init__.py"))) u
    ((codeSite t).importedPackages u.imports)
  rw [hadd, himports]
  exact ⟨name_described h.isName [], rfl, rfl⟩

/-- The two packages, with their classes. -/
structure Orders (sale web : Package) (a b d : String × Model) : Prop where
  declaresSale : (codeSite ordersTree).Declares ⟨"sale"⟩ sale [a, b]
  declaresWeb : (codeSite ordersTree).Declares ⟨"web"⟩ web [d]
  saleName : sale.name = "sale"
  webName : web.name = "web"
  defining : ClassOutline.of a = ⟨"Order", some "sale.order", [], []⟩
  reopening : ClassOutline.of b = ⟨"OrderMore", some "sale.order", ["sale.order"], []⟩
  extending : ClassOutline.of d = ⟨"Order", some "sale.order", ["sale.order"], []⟩
  imports : web.imports = .empty
  refers : web.refers = .empty

lemma exists_orders : ∃ sale web a b d, Orders sale web a b d := by
  obtain ⟨sale, cs, hsale, hcs, hsaleName, -⟩ :=
    exists_declares_leaf (t := ordersTree) (n := "sale")
      ("class Order(models.Model):\n    _name = 'sale.order'\n\n" ++
        "class OrderMore(models.Model):\n    _inherit = 'sale.order'\n")
      [⟨"Order", some "sale.order", [], []⟩, ⟨"OrderMore", some "sale.order", ["sale.order"], []⟩]
      ⟨rfl, by decide, by decide +kernel, by decide +kernel, by decide +kernel⟩ (by decide +kernel)
      (by decide +kernel) (by decide +kernel)
  obtain ⟨web, ds, hweb, hds, hwebName, himports, hrefers⟩ := exists_declares_leaf (t := ordersTree)
    (n := "web") "class Order(models.Model):\n    _inherit = 'sale.order'\n"
    [⟨"Order", some "sale.order", ["sale.order"], []⟩]
    ⟨rfl, by decide, by decide +kernel, by decide +kernel, by decide +kernel⟩ (by decide +kernel)
    (by decide +kernel) (by decide +kernel)
  obtain ⟨a, _, rfl, ha, htail⟩ := List.map_eq_cons_iff.1 hcs
  obtain ⟨b, rfl, hb⟩ := List.map_eq_singleton_iff.1 htail
  obtain ⟨d, rfl, hd⟩ := List.map_eq_singleton_iff.1 hds
  exact ⟨sale, web, a, b, d, hsale, hweb, hsaleName, hwebName, ha, hb, hd, himports, hrefers⟩

variable {sale web : Package} {a b d : String × Model}

/-- The classes of the two packages. -/
def classesOf (a b d : String × Model) (p : Package) : List (String × Model) :=
  if p.name = "sale" then [a, b] else [d]

lemma Orders.assembled (h : Orders sale web a b d) : Assembled [sale, web] (classesOf a b d) := by
  intro p hp
  refine ⟨codeSite ordersTree, ⟨p.name⟩, by decide, ?_⟩
  rcases List.mem_pair.1 hp with rfl | rfl
  · rw [classesOf, if_pos h.saleName, h.saleName]
    exact h.declaresSale
  · rw [classesOf, if_neg (by rw [h.webName]; decide), h.webName]
    exact h.declaresWeb

lemma Orders.full (h : Orders sale web a b d) : (ofPackages [sale, web]).full.get? n =
    if n = "web" then some web else if n = "sale" then some sale else none := by
  have hadd : ofPackages [sale, web] = Catalog.add (Catalog.add {} sale) web := rfl
  have hweb : (Catalog.add {} sale).full.contains "web" = false := by
    simp [Catalog.add, OrdMap.contains, h.saleName, get?_insert]
  rw [hadd, Catalog.add, h.webName, hweb]
  simp [Catalog.add, OrdMap.contains, h.saleName, get?_insert]

/-- A class without parents is a piece from scratch. -/
lemma fromScratch_of_outline {c : String × Model} {i : String} {fields : List String}
    {name : Option String} {parents : List String}
    (h : ClassOutline.of c = ⟨i, name, parents, fields⟩) :
    c.2.adoptInheritName.name = name ∧ (c.2.adoptInheritName.FromScratch ↔ parents = []) := by
  obtain ⟨-, hname, hparents, -⟩ := ClassOutline.mk.inj h
  rw [Model.fromScratch_iff_parents, Model.parents_adoptInheritName, hparents]
  exact ⟨hname, Iff.rfl⟩

lemma Orders.piecesOf_sale (h : Orders sale web a b d) :
    piecesOf (classesOf a b d sale) "sale.order" =
      [a.2.adoptInheritName, b.2.adoptInheritName] := by
  rw [classesOf, if_pos h.saleName]
  simp [piecesOf, (fromScratch_of_outline h.defining).1, (fromScratch_of_outline h.reopening).1]

lemma Orders.piecesOf_web (h : Orders sale web a b d) :
    piecesOf (classesOf a b d web) "sale.order" = [d.2.adoptInheritName] := by
  rw [classesOf, if_neg (by rw [h.webName]; decide)]
  simp [piecesOf, (fromScratch_of_outline h.extending).1]

lemma Orders.onlyDefiner (h : Orders sale web a b d) :
    (ofPackages [sale, web]).OnlyDefiner (classesOf a b d) sale "sale.order" where
  full := by
    rw [h.full, h.saleName]
    rfl
  defining := by
    rw [h.piecesOf_sale]
    exact ⟨_, List.mem_cons_self, (fromScratch_of_outline h.defining).2.2 rfl⟩
  others := by
    intro n q hq hne
    rw [h.full] at hq
    rw [h.saleName] at hne
    rw [if_neg hne] at hq
    split at hq
    · obtain rfl := Option.some.inj hq
      rw [h.piecesOf_web]
      simpa using mt (fromScratch_of_outline h.extending).2.1 (by simp)
    · cases hq

lemma Orders.not_fromScratch (h : Orders sale web a b d) :
    ¬ ∀ m ∈ piecesOf (classesOf a b d sale) "sale.order", m.FromScratch := by
  rw [h.piecesOf_sale]
  intro hscratch
  exact absurd ((fromScratch_of_outline h.reopening).2.1 (hscratch _ (by simp))) (by simp)

/-- The extending package has one model, which extends that of the other one. -/
lemma Orders.extends_iff (h : Orders sale web a b d) {other : String} :
    web.Extends other ↔ other = "sale.order" := by
  obtain ⟨-, hname, hparents, -⟩ := ClassOutline.mk.inj h.extending
  have hmodels (n : String) : web.models.get? n =
      if n = "sale.order" then some d.2.adoptInheritName else none := by
    rw [(h.declaresWeb.declaredBy (by decide)).models]
    by_cases hn : "sale.order" = n
    · subst hn
      simp [piecesOf, hname, Model.mergeAll, Model.pile]
    · simp [piecesOf, hname, hn, Ne.symm hn, Model.mergeAll]
  constructor
  · rintro ⟨m, hm, hother⟩
    obtain ⟨n, hn⟩ := mem_values_iff.1 hm
    rw [hmodels] at hn
    split at hn
    · obtain rfl := Option.some.inj hn
      rwa [Model.parents_adoptInheritName, hparents, List.mem_singleton] at hother
    · cases hn
  · rintro rfl
    refine ⟨d.2.adoptInheritName, mem_values_iff.2 ⟨_, (hmodels _).trans (if_pos rfl)⟩, ?_⟩
    rw [Model.parents_adoptInheritName, hparents]
    exact List.mem_singleton_self _

lemma Orders.mem_packages (h : Orders sale web a b d) :
    web ∈ (ofPackages [sale, web]).packages := by
  have hfull : (ofPackages [sale, web]).full.get? web.name = some web := by
    rw [h.full, if_pos h.webName]
  have hselected : web.name ∈ (ofPackages [sale, web]).selected.toList :=
    (unfiltered_ofPackages [sale, web] web.name).2 (by simp [OrdMap.contains, hfull])
  exact (wellKeyed_ofPackages [sale, web]).mem_packages.2 ⟨hfull, hselected⟩

theorem used_iff_of_onlyDefiner_orders : ∃ sale web a b d,
    Assembled [sale, web] (classesOf a b d) ∧
    (ofPackages [sale, web]).OnlyDefiner (classesOf a b d) sale "sale.order" ∧
    web ∈ (ofPackages [sale, web]).packages ∧ web.Extends "sale.order" ∧
    ∃ entry, (ofPackages [sale, web]).dependencyReport.get? web.name = some entry ∧
      (sale.name ∈ entry.used.toList ↔
        (∀ m ∈ piecesOf (classesOf a b d sale) "sale.order", m.FromScratch) ∨
        (sale.name ∈ web.imports.toList ∨ sale.name ∈ web.refers.toList) ∨
        ∃ other, other ≠ "sale.order" ∧ web.Extends other ∧
          (ofPackages [sale, web]).Owns sale.name other) := by
  obtain ⟨sale, web, a, b, d, h⟩ := exists_orders
  have hextends := h.extends_iff.2 rfl
  exact ⟨sale, web, a, b, d, h.assembled, h.onlyDefiner, h.mem_packages, hextends,
    used_iff_of_onlyDefiner [sale, web] [] (classesOf a b d) h.assembled h.onlyDefiner
      h.mem_packages hextends⟩

/-- It is not so that a package uses the only package with a class that defines the model which it
extends: another class of that package may hide this one. -/
theorem not_used_of_onlyDefiner : ¬ ∀ (l : List Package) (cs : Package → List (String × Model))
    (p r : Package) (model : String) (entry : Usage), Assembled l cs →
    (ofPackages l).OnlyDefiner cs p model → r ∈ (ofPackages l).packages → r.Extends model →
    (ofPackages l).dependencyReport.get? r.name = some entry → p.name ∈ entry.used.toList := by
  intro huses
  obtain ⟨sale, web, a, b, d, h⟩ := exists_orders
  have hused := huses [sale, web] (classesOf a b d) sale web "sale.order" _ h.assembled
    h.onlyDefiner h.mem_packages (h.extends_iff.2 rfl)
    ((wellKeyed_ofPackages [sale, web]).get?_dependencyReport h.mem_packages)
  rcases (h.onlyDefiner.mem_used h.assembled (h.extends_iff.2 rfl)).1 hused with
    hscratch | hdirect | ⟨other, hne, hother, -⟩
  · exact h.not_fromScratch hscratch
  · rw [h.imports, h.refers] at hdirect
    exact hdirect.elim List.not_mem_nil List.not_mem_nil
  · exact hne (h.extends_iff.1 hother)

end

end Catalog

end AddonAtlas
