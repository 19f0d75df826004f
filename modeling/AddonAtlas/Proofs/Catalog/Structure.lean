import AddonAtlas.Proofs.Catalog.Selection
import AddonAtlas.Proofs.Catalog.Shown
import AddonAtlas.Proofs.Discovery.Scripts

/-!
The structure of a catalog: its packages, with the models, fields and views in them.

Ids are put together from names with slashes between them. A member stands below the right kind of
node whatever the names are, so the graph is a forest unless two members have one id. A model and a
view do if they have one name in one package; apart from them only names with slashes can clash.
-/

namespace AddonAtlas

/-! ## Ids -/

/-- What stands before the first slash of an id. -/
def firstPart (id : String) : String := String.ofList (id.toList.takeWhile (· ≠ '/'))

/-- The ids of a thing and of what is in it. -/
def idsBelow (name : String) (inside : List String) : List String :=
  name :: inside.map fun x => name ++ "/" ++ x

section

variable {α : Type u} {a x y : String} {inside : List String} {l : List α}

lemma firstPart_of_not_mem (h : '/' ∉ a.toList) : firstPart a = a := by
  rw [firstPart, Text.takeWhile_of_not_mem h, String.ofList_toList]

lemma firstPart_join (h : '/' ∉ a.toList) (x : String) : firstPart (a ++ "/" ++ x) = a := by
  have hlist : (a ++ "/" ++ x).toList = a.toList ++ '/' :: x.toList := by simp
  rw [firstPart, hlist, Text.takeWhile_append_cons h, String.ofList_toList]

lemma firstPart_of_mem_idsBelow (h : '/' ∉ a.toList) (hx : x ∈ idsBelow a inside) :
    firstPart x = a := by
  rcases List.mem_cons.1 hx with rfl | hx
  · exact firstPart_of_not_mem h
  · obtain ⟨y, -, rfl⟩ := List.mem_map.1 hx
    exact firstPart_join h y

lemma join_injective (a : String) : Function.Injective fun x => a ++ "/" ++ x := fun x y h => by
  have hlist := congrArg String.toList h
  simpa [String.toList_inj] using hlist

lemma slash_mem_join (a x : String) : '/' ∈ (a ++ "/" ++ x).toList := by simp

lemma join_ne (a x : String) : a ++ "/" ++ x ≠ a := fun h => by
  have hlength := congrArg (fun s => s.toList.length) h
  simp at hlength

lemma nodup_idsBelow : (idsBelow a inside).Nodup ↔ inside.Nodup := by
  rw [idsBelow, List.nodup_cons, List.nodup_map_iff (join_injective a)]
  refine and_iff_right fun h => ?_
  obtain ⟨x, -, hx⟩ := List.mem_map.1 h
  exact join_ne a x hx

/-- Ids below different names without slashes are different. -/
lemma nodup_flatMap_idsBelow {name : α → String} {inside : α → List String}
    (hslash : ∀ a ∈ l, '/' ∉ (name a).toList) (hnames : (l.map name).Nodup) :
    (l.flatMap fun a => idsBelow (name a) (inside a)).Nodup ↔ ∀ a ∈ l, (inside a).Nodup := by
  -- all ids below a name begin with it, so they tell the name
  have hapart : l.Pairwise fun a b =>
      List.Disjoint (idsBelow (name a) (inside a)) (idsBelow (name b) (inside b)) := by
    refine (List.pairwise_map.1 hnames).imp_of_mem fun {a b} ha hb hne x hxa hxb => hne ?_
    rw [← firstPart_of_mem_idsBelow (hslash a ha) hxa, firstPart_of_mem_idsBelow (hslash b hb) hxb]
  rw [List.nodup_flatMap, and_iff_left hapart]
  simp only [nodup_idsBelow]

end

/-! ## Forests -/

/-- Packages contain models and views, models contain fields. -/
inductive NodeKind.Contains : NodeKind → NodeKind → Prop
  | model : Contains .package .model
  | view : Contains .package .view
  | field : Contains .model .field

lemma NodeKind.Contains.ne_package {k k' : NodeKind} (h : k.Contains k') : k' ≠ .package := by
  cases h <;> decide

/-- **A forest of packages.** Ids are distinct, no edge leads to a package, and one edge leads to
each other node, from a node that may contain it. -/
structure GraphView.IsForest (v : GraphView) : Prop where
  distinct : v.names.Nodup
  roots : ∀ x ∈ v.nodes, x.kind = some .package → ∀ e ∈ v.edges, e.target ≠ x.name
  single : ∀ x ∈ v.nodes, x.kind ≠ some .package →
    ∃ e, (v.edges.filter fun e => e.target = x.name) = [e] ∧
      ∃ y ∈ v.nodes, y.name = e.source ∧
        ∃ k k', y.kind = some k ∧ x.kind = some k' ∧ k.Contains k'

/-- The nodes of a kind. -/
def GraphView.ofKind (v : GraphView) (k : NodeKind) : List GraphNode :=
  v.nodes.filter fun x => x.kind = some k

namespace Catalog

variable {l : List Member} {m : Member}

/-- The edge to a member from what contains it. -/
def edgeTo (m : Member) : Option GraphEdge := m.container.map fun k => ⟨k, m.name, false⟩

/-- The view of members. -/
def structureOf (l : List Member) : GraphView where
  nodes := l.map fun m => { name := m.name, base := false, kind := some m.kind }
  edges := l.filterMap edgeTo

/-- A member is a package, or stands in a member that may contain it. -/
def Placed (l : List Member) (m : Member) : Prop :=
  (m.container = none ∧ m.kind = .package) ∨
    ∃ k ∈ l, m.container = some k.name ∧ k.kind.Contains m.kind

lemma Placed.mono {l' : List Member} (h : Placed l m) (hl : l ⊆ l') : Placed l' m := by
  rcases h with h | ⟨k, hk, hm⟩
  · exact .inl h
  · exact .inr ⟨k, hl hk, hm⟩

lemma names_structureOf (l : List Member) : (structureOf l).names = l.map Member.name := by
  rw [GraphView.names, structureOf, List.map_map]
  rfl

lemma filter_name_eq (h : (l.map Member.name).Nodup) (hm : m ∈ l) :
    (l.filter fun x => x.name = m.name) = [m] := by
  refine List.perm_singleton.1 ((List.perm_ext_iff_of_nodup ((List.Nodup.of_map _ h).filter _)
    (List.nodup_singleton m)).2 fun x => ?_)
  rw [List.mem_filter, List.mem_singleton]
  constructor
  · rintro ⟨hx, hname⟩
    exact List.inj_on_of_nodup_map h hx hm (of_decide_eq_true hname)
  · rintro rfl
    exact ⟨hm, by simp⟩

/-- If ids are distinct, the edge from its container is the only one that leads to a member. -/
lemma edgesTo_structureOf (h : (l.map Member.name).Nodup) (hm : m ∈ l) :
    ((structureOf l).edges.filter fun e => e.target = m.name) = (edgeTo m).toList := by
  have hedge (x : Member) : ((edgeTo x).filter fun e => e.target = m.name) =
      if x.name = m.name then edgeTo x else none := by
    unfold edgeTo
    cases x.container <;> simp [Option.filter]
  calc ((structureOf l).edges.filter fun e => e.target = m.name)
      = (l.filter fun x => x.name = m.name).filterMap edgeTo := by
        rw [structureOf, List.filter_filterMap, List.filterMap_filter]
        simp only [hedge, decide_eq_true_eq]
    _ = (edgeTo m).toList := by
        rw [filter_name_eq h hm, List.filterMap_eq_flatMap_toList, List.flatMap_singleton]

/-- Members that are placed make a forest just if their ids are distinct. -/
lemma isForest_structureOf (hplaced : ∀ m ∈ l, Placed l m) :
    (structureOf l).IsForest ↔ (structureOf l).names.Nodup := by
  refine ⟨fun h => h.distinct, fun h => ⟨h, ?_, ?_⟩⟩
  -- in both cases the edges to a member are read off from its container
  all_goals
    rw [names_structureOf] at h
    intro x hx hkind
    obtain ⟨m, hm, rfl⟩ := List.mem_map.1 hx
  · intro e he htarget
    have hmem : e ∈ (structureOf l).edges.filter fun e => e.target = m.name :=
      List.mem_filter.2 ⟨he, decide_eq_true htarget⟩
    rw [edgesTo_structureOf h hm, edgeTo] at hmem
    rcases hplaced m hm with ⟨hnone, -⟩ | ⟨k, -, -, hcontains⟩
    · simp [hnone] at hmem
    · exact hcontains.ne_package (Option.some.inj hkind)
  · rcases hplaced m hm with ⟨-, hpackage⟩ | ⟨k, hk, hcontainer, hcontains⟩
    · exact absurd (congrArg some hpackage) hkind
    · exact ⟨_, by rw [edgesTo_structureOf h hm, edgeTo, hcontainer]; rfl, _,
        List.mem_map_of_mem hk, rfl, k.kind, m.kind, rfl, rfl, hcontains⟩

/-- The number of members of a kind. -/
def countKind (l : List Member) (k : NodeKind) : Nat := (l.filter fun m => m.kind = k).length

lemma ofKind_structureOf (l : List Member) (k : NodeKind) :
    ((structureOf l).ofKind k).length = countKind l k := by
  simp [GraphView.ofKind, structureOf, countKind, List.filter_map, Function.comp_def]

end Catalog

/-! ## Packages -/

namespace Package

variable {models views : GlobSet} {fields : Bool} {p : Package}

/-- The models of a package that match. -/
def matchingModels (models : GlobSet) (p : Package) : List (String × Model) :=
  p.models.entries.filter fun e => models.accepts e.1

/-- The views of a package that match. -/
def matchingViews (views : GlobSet) (p : Package) : List String := p.views.keys.filter views.accepts

/-- The ids of what is in a package, without the name of the package before them. -/
def idsInside (models views : GlobSet) (fields : Bool) (p : Package) : List String :=
  ((p.matchingModels models).flatMap fun e =>
    idsBelow e.1 (if fields then e.2.fields.keys else [])) ++ p.matchingViews views

/-- How many members of each kind a package has. -/
def memberCount (models views : GlobSet) (fields : Bool) (p : Package) : NodeKind → Nat
  | .package => 1
  | .model => (p.matchingModels models).length
  | .field => if fields then ((p.matchingModels models).map fun e => e.2.fields.size).sum else 0
  | .view => (p.matchingViews views).length

lemma nodup_matchingModels : ((p.matchingModels models).map Prod.fst).Nodup :=
  (OrdSet.nodup_keys p.models).sublist (List.filter_sublist.map Prod.fst)

lemma nodup_matchingViews : (p.matchingViews views).Nodup := (OrdSet.nodup_keys p.views).filter _

lemma not_mem_matchingViews (h : (p.idsInside models views fields).Nodup) {e : String × Model}
    (he : e ∈ p.matchingModels models) : e.1 ∉ p.matchingViews views :=
  List.disjoint_left.1 (List.nodup_append'.1 h).2.2
    (List.mem_flatMap.2 ⟨e, he, List.mem_cons_self⟩)

/-- Without slashes in the names of models and views, ids clash just if a model and a view share a
name. -/
lemma nodup_idsInside_iff (hmodels : ∀ e ∈ p.matchingModels models, '/' ∉ e.1.toList)
    (hviews : ∀ v ∈ p.matchingViews views, '/' ∉ v.toList) :
    (p.idsInside models views fields).Nodup ↔
      ∀ e ∈ p.matchingModels models, e.1 ∉ p.matchingViews views := by
  have hfields : ∀ e ∈ p.matchingModels models, (if fields then e.2.fields.keys else []).Nodup := by
    intro e _
    split
    · exact OrdSet.nodup_keys e.2.fields
    · exact List.nodup_nil
  refine ⟨fun h e he => not_mem_matchingViews h he, fun h => ?_⟩
  rw [idsInside, List.nodup_append', nodup_flatMap_idsBelow hmodels nodup_matchingModels]
  refine ⟨hfields, nodup_matchingViews, List.disjoint_left.2 fun x hx hview => ?_⟩
  obtain ⟨e, he, hx⟩ := List.mem_flatMap.1 hx
  rcases List.mem_cons.1 hx with rfl | hx
  · exact h e he hview
  · -- the id of a field has a slash
    obtain ⟨f, -, rfl⟩ := List.mem_map.1 hx
    exact hviews _ hview (slash_mem_join e.1 f)

end Package

namespace Catalog

variable {c : Catalog} {p : Package} {packages models views : GlobSet} {fields : Bool}

/-- The selected packages that match. -/
def matching (packages : GlobSet) (c : Catalog) : List Package :=
  c.packages.filter fun p => packages.accepts p.name

lemma names_packageMembers (models views : GlobSet) (fields : Bool) (p : Package) :
    (packageMembers models views fields p).map Member.name =
      idsBelow p.name (p.idsInside models views fields) := by
  have hmodel (e : String × Model) : (modelMembers p.name fields e.1 e.2).map Member.name =
      (idsBelow e.1 (if fields then e.2.fields.keys else [])).map fun x => p.name ++ "/" ++ x := by
    cases fields <;> simp [modelMembers, idsBelow, String.append_assoc]
  simp [packageMembers, idsBelow, Package.idsInside, Package.matchingModels, Package.matchingViews,
    List.map_flatMap, hmodel]

lemma countKind_packageMembers (k : NodeKind) :
    countKind (packageMembers models views fields p) k = p.memberCount models views fields k := by
  cases k <;> cases fields <;>
    simp [countKind, packageMembers, modelMembers, Package.memberCount, Package.matchingModels,
      Package.matchingViews, OrdMap.size, OrdMap.keys, List.filter_flatMap, List.filter_map,
      Function.comp_def, List.length_flatMap]

lemma placed_packageMembers :
    ∀ m ∈ packageMembers models views fields p,
      Placed (packageMembers models views fields p) m := by
  intro m hm
  have htop : ⟨p.name, .package, none⟩ ∈ packageMembers models views fields p := List.mem_cons_self
  rcases List.mem_append.1 hm with hm | hm
  · rcases List.mem_cons.1 hm with rfl | hm
    · exact .inl ⟨rfl, rfl⟩
    · obtain ⟨e, he, hm⟩ := List.mem_flatMap.1 hm
      rcases List.mem_cons.1 hm with rfl | hfield
      · exact .inr ⟨_, htop, rfl, .model⟩
      · have hmodel : ⟨p.name ++ "/" ++ e.1, .model, some p.name⟩ ∈
            packageMembers models views fields p :=
          List.mem_append_left _ (List.mem_cons_of_mem _
            (List.mem_flatMap.2 ⟨e, he, List.mem_cons_self⟩))
        split at hfield
        · obtain ⟨f, -, rfl⟩ := List.mem_map.1 hfield
          exact .inr ⟨_, hmodel, rfl, .field⟩
        · cases hfield
  · obtain ⟨v, -, rfl⟩ := List.mem_map.1 hm
    exact .inr ⟨_, htop, rfl, .view⟩

/-- The members of the packages that match. -/
def members (packages models views : GlobSet) (fields : Bool) (c : Catalog) : List Member :=
  (c.matching packages).flatMap (packageMembers models views fields)

lemma placed_members : ∀ m ∈ c.members packages models views fields,
    Placed (c.members packages models views fields) m := by
  intro m hm
  obtain ⟨p, hp, hm⟩ := List.mem_flatMap.1 hm
  exact (placed_packageMembers m hm).mono fun x hx => List.mem_flatMap.2 ⟨p, hp, hx⟩

lemma countKind_members (k : NodeKind) : countKind (c.members packages models views fields) k =
    ((c.matching packages).map fun p => p.memberCount models views fields k).sum := by
  simp only [← countKind_packageMembers]
  rw [countKind, members, List.filter_flatMap, List.length_flatMap]
  rfl

lemma names_members : (c.members packages models views fields).map Member.name =
    (c.matching packages).flatMap fun p => idsBelow p.name (p.idsInside models views fields) := by
  rw [members, List.map_flatMap]
  simp only [names_packageMembers]

lemma structureGraph_eq {o : StructureGraphOptions}
    (hpackages : GlobSet.parse o.packages = .ok packages)
    (hmodels : GlobSet.parse o.models = .ok models) (hviews : GlobSet.parse o.views = .ok views)
    (c : Catalog) :
    c.structureGraph o = .ok (structureOf (c.members packages models views o.fields)) := by
  rw [structureGraph, hpackages, hmodels, hviews]
  rfl

/-- The names of matching packages are distinct. -/
lemma WellKeyed.nodup_matching (h : c.WellKeyed) :
    ((c.matching packages).map Package.name).Nodup := by
  have hall : (c.packages.map Package.name).Nodup := h.map_name_packages ▸ c.selected.nodup
  exact hall.sublist (List.filter_sublist.map Package.name)

/-- **Structures.** For well-formed globs the structure graph has the matching packages with the
matching models, their fields and the matching views, in their numbers. It is a forest just if no
two nodes have one id. Below packages without slashes in their names this is for each of them to
decide, and if the names of models and views have no slashes either, it is so just if in no package
a model and a view that match have one name. -/
theorem structureGraph_isForest (c : Catalog) (hc : c.WellKeyed) (o : StructureGraphOptions)
    {packages models views : GlobSet} (hpackages : GlobSet.parse o.packages = .ok packages)
    (hmodels : GlobSet.parse o.models = .ok models) (hviews : GlobSet.parse o.views = .ok views) :
    ∃ view, c.structureGraph o = .ok view ∧
      (∀ k, (view.ofKind k).length =
        ((c.matching packages).map fun p => p.memberCount models views o.fields k).sum) ∧
      (view.IsForest ↔ view.names.Nodup) ∧
      ((∀ p ∈ c.matching packages, '/' ∉ p.name.toList) →
        (view.IsForest ↔ ∀ p ∈ c.matching packages, (p.idsInside models views o.fields).Nodup) ∧
        ((∀ p ∈ c.matching packages, (∀ e ∈ p.matchingModels models, '/' ∉ e.1.toList) ∧
            ∀ v ∈ p.matchingViews views, '/' ∉ v.toList) →
          (view.IsForest ↔ ∀ p ∈ c.matching packages, ∀ e ∈ p.matchingModels models,
            e.1 ∉ p.matchingViews views))) := by
  have hforest := isForest_structureOf
    (placed_members : ∀ m ∈ c.members packages models views o.fields, Placed _ m)
  refine ⟨_, structureGraph_eq hpackages hmodels hviews c, fun k => ?_, hforest, fun hslash => ?_⟩
  · rw [ofKind_structureOf, countKind_members]
  · rw [names_structureOf, names_members,
      nodup_flatMap_idsBelow hslash hc.nodup_matching] at hforest
    refine ⟨hforest, fun hinside => hforest.trans (forall₂_congr fun p hp => ?_)⟩
    exact Package.nodup_idsInside_iff (hinside p hp).1 (hinside p hp).2

lemma matching_partners : ((partners 0).matching .star).map
    (fun p => (p.name, (p.matchingModels .star).map Prod.fst, p.matchingViews .star)) =
      [("base", ["res.partner", "res.users"], ["base.form"])] := by decide +kernel

theorem structureGraph_isForest_partners : (partners 0).WellKeyed ∧
    GlobSet.parse "*" = .ok .star ∧
    ∃ view, (partners 0).structureGraph {} = .ok view ∧ view.IsForest := by
  have hkeyed : (partners 0).WellKeyed := wellKeyed_ofPackages _
  obtain ⟨view, hview, -, -, hforest⟩ := structureGraph_isForest (partners 0) hkeyed {}
    GlobSet.parse_star GlobSet.parse_star GlobSet.parse_star
  refine ⟨hkeyed, GlobSet.parse_star, view, hview, ?_⟩
  have hnames : ∀ p ∈ (partners 0).matching .star, p.name = "base" ∧
      (p.matchingModels .star).map Prod.fst = ["res.partner", "res.users"] ∧
      p.matchingViews .star = ["base.form"] := fun p hp => by
    have hmem := List.mem_map_of_mem
      (f := fun p : Package =>
        (p.name, (p.matchingModels .star).map Prod.fst, p.matchingViews .star)) hp
    rw [matching_partners] at hmem
    simpa using hmem
  have hmodels {p : Package} {e : String × Model} (hp : p ∈ (partners 0).matching .star)
      (he : e ∈ p.matchingModels .star) : e.1 = "res.partner" ∨ e.1 = "res.users" := by
    have hmem := List.mem_map_of_mem (f := Prod.fst) he
    rw [(hnames p hp).2.1] at hmem
    simpa using hmem
  obtain ⟨-, hinside⟩ := hforest fun p hp => by rw [(hnames p hp).1]; decide
  refine (hinside fun p hp => ⟨fun e he => ?_, ?_⟩).2 fun p hp e he => ?_
  · rcases hmodels hp he with h | h <;> rw [h] <;> decide
  · rw [(hnames p hp).2.2]
    decide
  · rw [(hnames p hp).2.2]
    rcases hmodels hp he with h | h <;> rw [h] <;> decide

/-! ### A model and a view of one name -/

section

open Site

def orderSource : String := "class Order(models.Model):\n    _name = 'sale.order'\n"

def orderMarkup : String := "<odoo><record id='order' model='ir.ui.view'/></odoo>"

/-- A package with a model, whose markup has a view of the same name. -/
def orderTree : FileTree :=
  ((({} : FileTree).addFile ["sale", "__manifest__.py"]
    cartManifest.toUTF8).addFile ["sale", "__init__.py"] orderSource.toUTF8).addFile
    ["sale", "v.xml"] orderMarkup.toUTF8

/-- The package is read without its scripts. -/
def orderSite : Site where
  files := orderTree
  settings := { discovery :=
    { manifestFiles := ["__manifest__.py"]
      skipReadme := true
      skipAssets := true
      skipLanguage := true } }

lemma hasManifest_orderSite : HasManifest orderSite.files "sale" cartManifest where
  here := rfl
  isName := by decide
  top := by decide +kernel
  directory := by decide +kernel
  manifest := by decide +kernel

lemma readText?_orderSite :
    orderSite.files.readText? ((Path.mk "sale").join "__init__.py") = some orderSource ∧
      orderSite.files.readText? ((Path.mk "sale").join "v.xml") = some orderMarkup :=
  ⟨hasManifest_orderSite.readText? (by decide) (by decide +kernel),
    hasManifest_orderSite.readText? (by decide) (by decide +kernel)⟩

/-- The markup of the package declares the view. -/
lemma exists_dataFile_orderSite : ∃ u r,
    orderSite.dataFile "sale" ((Path.mk "sale").join "v.xml") = .markup u ∧ r ∈ u.records ∧
      r.name = "sale.order" ∧ r.view = true := by
  obtain ⟨u, hu, hrecords⟩ := Option.map_eq_some_iff.1
    (by decide +kernel : (Markup.Unit.ofText? "sale" orderMarkup).map
      (fun u => u.records.map fun r => (r.name, r.view)) = some [("sale.order", true)])
  obtain ⟨r, hr, hview⟩ := List.map_eq_singleton_iff.1 hrecords
  obtain ⟨hname, hview⟩ := Prod.mk.inj hview
  exact ⟨u, r, dataFile_of_readText? extension?_markup readText?_orderSite.2 hu, by simp [hr],
    hname, hview⟩

/-- The sources of the package are read, and declare the model. -/
lemma exists_run_orderSite (fields : List (String × Value)) : ∃ q c,
    orderSite.QueueRun ((Path.mk "sale").join "__init__.py") (described "sale" fields)
      [(Path.mk "sale").join "__init__.py"] [(Path.mk "sale").join "__init__.py"] q ∧
    orderSite.classesIn [(Path.mk "sale").join "__init__.py"] = [c] ∧
    c.2.adoptInheritName.name = some "sale.order" ∧ q.name = "sale" := by
  obtain ⟨u, hu, himports, hclasses⟩ := exists_readSource readText?_orderSite.1
    (by decide +kernel : outline orderSource = some ([], [⟨"Order", some "sale.order", [], []⟩]))
  obtain ⟨c, hc, houtline⟩ := List.map_eq_singleton_iff.1 hclasses
  have hu : orderSite.readSource ((Path.mk "sale").join "__init__.py") = .ok u := hu
  refine ⟨_, c, QueueRun.leaf _ rfl hu himports, ?_, (ClassOutline.mk.inj houtline).2.1, ?_⟩
  · simp [classesIn, unitsOf, hu, hc, Except.toOption]
  · have hname : (described "sale" fields).name = "sale" := name_described (by decide) fields
    rw [name_addSource]
    exact hname

lemma exists_orderPackage : ∃ p, orderSite.assemble ⟨"sale"⟩ = .ok (.package p) ∧
    "sale.order" ∈ p.models.keys ∧ "sale.order" ∈ p.views.keys := by
  obtain ⟨fields, hfields, hlisted⟩ := exists_readManifest_cart
  obtain ⟨q, c, hrun, hclasses, hcname, hqname⟩ := exists_run_orderSite fields
  obtain ⟨u, r, hu, hr, hrname, hrview⟩ := exists_dataFile_orderSite
  have hmanifests := hasManifest_orderSite.readManifests (s := orderSite) rfl rfl hfields
  have hcode := readCode_of_run (s := orderSite) rfl hrun (by decide +kernel)
  have hpaths : orderSite.dataPaths ⟨"sale"⟩ q = [(Path.mk "sale").join "v.xml"] := by
    refine dataPaths_cart rfl ?_
    rw [Package.dataFiles, manifest_readCode hcode, ← Package.dataFiles, hlisted]
  obtain ⟨p, hp⟩ : ∃ p, orderSite.readDataFile ⟨""⟩ q ((Path.mk "sale").join "v.xml") = .ok p := by
    rw [readDataFile_eq, hqname, hu]
    exact ⟨_, rfl⟩
  have hdata : orderSite.readDataFiles ⟨""⟩ q [(Path.mk "sale").join "v.xml"] = .ok p := by
    rw [readDataFiles, List.foldlM_cons, hp]
    rfl
  obtain ⟨digest, hassemble⟩ :=
    hasManifest_orderSite.exists_assemble (s := orderSite) rfl rfl hfields
      (FileTree.isFile_of_readText? readText?_orderSite.1) hcode
      (by rw [parent?_sale]; exact hpaths ▸ hdata)
  have hdeclares : orderSite.Declares ⟨"sale"⟩ (p.withDigest digest) [c] :=
    ⟨hassemble, fun hskip => absurd hskip Bool.false_ne_true,
      fun _ => ⟨_, _, _, hmanifests, hrun, hclasses.symm⟩⟩
  have hholds : p.Holds r :=
    (absorbed_readDataFile rfl hp).holds r (by rw [hqname, hu]; exact hr)
  refine ⟨_, hassemble, ?_, ?_⟩
  · rw [OrdMap.mem_keys_iff, (hdeclares.declaredBy (by decide)).models]
    exact ⟨c.2.adoptInheritName, by simp [Package.piecesOf, hcname, Model.mergeAll, Model.pile]⟩
  · have hcontains := hholds.contains
    rw [hrview, hrname] at hcontains
    exact OrdMap.contains_iff_mem_keys.1 hcontains

lemma packages_single (p : Package) : (ofPackages [p]).packages = [p] := by
  have hpackages : (ofPackages [p]).packages =
      [p.name].filterMap (OrdMap.empty.insert p.name p).get? := rfl
  rw [hpackages, List.filterMap_cons_some (OrdMap.get?_insert_self .empty p.name p)]
  rfl

/-- It is not so that the structure of an assembled package is a forest: a model and a view of it
may have one id. -/
theorem not_structureGraph_isForest : ¬ ∀ (s : Site) (dir : Path) (p : Package)
    (o : StructureGraphOptions) (view : GraphView), s.assemble dir = .ok (.package p) →
    (ofPackages [p]).structureGraph o = .ok view → view.IsForest := by
  intro h
  obtain ⟨p, hp, hmodel, hview⟩ := exists_orderPackage
  have hforest := h orderSite ⟨"sale"⟩ p {} _ hp
    (structureGraph_eq GlobSet.parse_star GlobSet.parse_star GlobSet.parse_star _)
  have hnodup := hforest.distinct
  rw [names_structureOf, names_members] at hnodup
  have hmatching : p ∈ (ofPackages [p]).matching .star :=
    List.mem_filter.2 ⟨by rw [packages_single]; exact List.mem_cons_self,
      GlobSet.accepts_star p.name⟩
  have hinside := nodup_idsBelow.1 ((List.nodup_flatMap.1 hnodup).1 p hmatching)
  obtain ⟨m, hm⟩ := OrdMap.mem_keys_iff.1 hmodel
  refine Package.not_mem_matchingViews hinside (e := ("sale.order", m)) ?_ ?_
  · exact List.mem_filter.2 ⟨OrdMap.get?_eq_some_iff.1 hm, GlobSet.accepts_star "sale.order"⟩
  · exact List.mem_filter.2 ⟨hview, GlobSet.accepts_star "sale.order"⟩

end

end Catalog

end AddonAtlas
