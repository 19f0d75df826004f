import AddonAtlas.Proofs.Discovery.Digest
import AddonAtlas.Proofs.Package.Merging

/-!
The classes of a package.

What the sources of a package declare is filed in the order in which they are read. Pieces of a
model are put together, so that nothing is lost which a class with a name declares. A class without
a name stands alone under its identifier, until a later one takes its place.
-/

namespace AddonAtlas

open AddonAtlas.Path

namespace Package

open Model

/-- A package holds the models that some classes make, and under an identifier the last of those
classes that have no name. -/
structure DeclaredBy (p : Package) (cs : List (String × Model)) : Prop where
  models : ∀ n, p.models.get? n = mergeAll (piecesOf cs n)
  classes : ∀ i, p.classes.get? i = (unnamedOf cs i).getLast?

/-- All that a class declares is found in a package: under its name, or under its identifier if it
has no name. -/
def Keeps (p : Package) (c : String × Model) : Prop :=
  match c.2.adoptInheritName.name with
  | some n => ∃ m, p.models.get? n = some m ∧ m.Covers c.2
  | none => ∃ m, p.classes.get? c.1 = some m ∧ m.Covers c.2

/-- The second package has the models and classes of the first one. -/
structure SameClasses (p q : Package) : Prop where
  models : q.models = p.models
  classes : q.classes = p.classes

lemma SameClasses.refl (p : Package) : SameClasses p p := ⟨rfl, rfl⟩

lemma SameClasses.trans {o p q : Package} (h : SameClasses o p) (h' : SameClasses p q) :
    SameClasses o q := ⟨h'.models.trans h.models, h'.classes.trans h.classes⟩

variable {p : Package} {cs : List (String × Model)} {c : String × Model} {m : Model} {n : String}

lemma name_of_mem_piecesOf : ∀ m ∈ piecesOf cs n, m.name = some n := fun _ hm =>
  (mem_piecesOf.1 hm).2

lemma DeclaredBy.name_covers (h : p.DeclaredBy cs) (hm : p.models.get? n = some m) :
    m.name = some n ∧ ∀ piece ∈ piecesOf cs n, m.Covers piece :=
  name_covers_mergeAll name_of_mem_piecesOf ((h.models n).symm.trans hm)

lemma DeclaredBy.exists_of_mem (h : p.DeclaredBy cs) (hm : m ∈ piecesOf cs n) :
    ∃ whole, p.models.get? n = some whole := by
  rw [h.models n, ← Option.ne_none_iff_exists', Ne, mergeAll_eq_none_iff]
  exact List.ne_nil_of_mem hm

/-- A class is kept if it has a name, and else just if the last class without a name that has its
identifier declares as much. -/
lemma DeclaredBy.keeps_iff (h : p.DeclaredBy cs) (hc : c ∈ cs) :
    p.Keeps c ↔ c.2.adoptInheritName.name ≠ none ∨
      ∃ m, (unnamedOf cs c.1).getLast? = some m ∧ m.Covers c.2 := by
  unfold Keeps
  split
  · rename_i n hn
    rw [hn]
    refine iff_of_true ?_ (.inl (by simp))
    have hmem : c.2.adoptInheritName ∈ piecesOf cs n := mem_piecesOf.2 ⟨⟨c, hc, rfl⟩, hn⟩
    obtain ⟨whole, hwhole⟩ := h.exists_of_mem hmem
    exact ⟨whole, hwhole, ((h.name_covers hwhole).2 _ hmem).trans (covers_adoptInheritName c.2)⟩
  · rename_i hn
    rw [hn, h.classes]
    simp

end Package

namespace Site

open Package

variable {s : Site} {entry dir f : Path} {p q : Package} {parent : Path}

/-! ## Filing what sources declare -/

/-- The classes in some files, in their order. -/
def classesIn (s : Site) (files : List Path) : List (String × Model) :=
  (s.unitsOf files).flatMap fun u => u.classes

lemma models_addSource (p : Package) (u : Source.Unit) (imported : List String) :
    (p.addSource u imported).models = u.classes.foldl fileModel p.models :=
  models_foldl_addClass { p with status := p.status.union u.status } u.classes

lemma classes_addSource (p : Package) (u : Source.Unit) (imported : List String) :
    (p.addSource u imported).classes = u.classes.foldl fileClass p.classes :=
  classes_foldl_addClass { p with status := p.status.union u.status } u.classes

lemma models_declare (p : Package) (units : List Source.Unit) :
    (s.declare p units).models = (units.flatMap fun u => u.classes).foldl fileModel p.models := by
  rw [List.foldl_flatMap]
  exact (List.foldl_hom Package.models fun p u => (models_addSource p u _).symm).symm

lemma classes_declare (p : Package) (units : List Source.Unit) :
    (s.declare p units).classes = (units.flatMap fun u => u.classes).foldl fileClass p.classes := by
  rw [List.foldl_flatMap]
  exact (List.foldl_hom Package.classes fun p u => (classes_addSource p u _).symm).symm

/-- A run that begins without models and classes ends with those of the files that it reads. -/
lemma declaredBy_of_run {queue order : List Path} (hmodels : p.models = .empty)
    (hclasses : p.classes = .empty) (h : s.QueueRun entry p queue order q) :
    q.DeclaredBy (s.classesIn order) := by
  rw [eq_of_run h]
  constructor
  · intro n
    rw [withFiles, models_declare, hmodels]
    exact get?_foldl_fileModel _ n
  · intro i
    rw [withFiles, classes_declare, hclasses]
    exact get?_foldl_fileClass _ i

/-! ## Later steps -/

lemma SameClasses.foldl {β : Type u} {step : Package → β → Package}
    (h : ∀ p b, SameClasses p (step p b)) (l : List β) (p : Package) :
    SameClasses p (l.foldl step p) := by
  induction l generalizing p with
  | nil => exact .refl p
  | cons b l ih => exact (h p b).trans (ih (step p b))

lemma sameClasses_readScript (p : Package) (f : Path) (address : String) :
    SameClasses p (s.readScript p f address) := by
  unfold readScript
  split
  · exact .refl p
  · dsimp only
    split <;> exact ⟨rfl, rfl⟩

lemma sameClasses_readScripts (p : Package) : SameClasses p (s.readScripts dir p) := by
  unfold readScripts
  split
  · exact .refl p
  · refine SameClasses.foldl (fun p pattern => ?_) _ p
    rw [readPattern_eq]
    exact SameClasses.foldl (fun p f => sameClasses_readScript p f _) _ p

lemma sameClasses_readAside (p : Package) : SameClasses p (s.readAside dir p) := by
  simp only [readAside, addKeywords]
  split <;> split <;> exact ⟨rfl, rfl⟩

lemma sameClasses_addMarkup (p : Package) (u : Markup.Unit) :
    SameClasses p (s.addMarkup parent p u) := by
  have hrefers : SameClasses p { p with refers := p.refers.union u.refers } := ⟨rfl, rfl⟩
  refine hrefers.trans ((SameClasses.foldl (fun p r => ?_) u.records _).trans
    (SameClasses.foldl (fun p n => ?_) u.scripts _))
  · unfold mergeRecord
    split <;> exact ⟨rfl, rfl⟩
  · unfold readNamedScript
    dsimp only
    split
    · exact sameClasses_readScript p _ _
    · exact .refl p

lemma sameClasses_readDataFile (h : s.readDataFile parent p f = .ok q) : SameClasses p q := by
  rw [readDataFile_eq] at h
  cases hx : s.dataFile p.name f with
  | failed e =>
    rw [hx] at h
    cases h
  | passed | missing | table =>
    rw [hx] at h
    obtain rfl := Except.ok.inj h
    exact ⟨rfl, rfl⟩
  | markup u =>
    rw [hx] at h
    obtain rfl := Except.ok.inj h
    have hfiles : SameClasses p { p with files := p.files.insert f } := ⟨rfl, rfl⟩
    exact hfiles.trans (sameClasses_addMarkup _ u)

lemma sameClasses_readDataFiles {l : List Path} (h : s.readDataFiles parent p l = .ok q) :
    SameClasses p q := by
  induction l generalizing p with
  | nil =>
    obtain rfl := Except.ok.inj h
    exact .refl p
  | cons f l ih =>
    rw [readDataFiles, List.foldlM_cons] at h
    obtain ⟨r, hr, hrest⟩ := exists_of_bind h
    exact (sameClasses_readDataFile hr).trans (ih hrest)

variable {a b c : Package} {cs : List (String × Model)}

/-- After the sources nothing is filed among the models and classes. -/
lemma Stages.sameClasses (h : s.Stages dir a b c p) : SameClasses b p := by
  have hlast : SameClasses c p := by
    rw [h.digest]
    exact ⟨rfl, rfl⟩
  exact (((sameClasses_readAside b).trans (sameClasses_readScripts _)).trans
    (sameClasses_readDataFiles h.readDataFiles)).trans hlast

/-! ## Packages -/

/-- A directory makes a package, and these are the classes of all its sources that can be read, in
the order in which they are. -/
structure Declares (s : Site) (dir : Path) (p : Package) (cs : List (String × Model)) : Prop where
  assembled : s.assemble dir = .ok (.package p)
  skipped : s.discovery.skipPython = true → cs = []
  read : s.discovery.skipPython = false → ∃ described coded order,
    s.readManifests dir (s.manifestsIn dir) = .ok described ∧
      s.QueueRun (dir.join s.discovery.entryPoint) described [dir.join s.discovery.entryPoint]
        order coded ∧ cs = s.classesIn order

lemma exists_declares (hname : IsName s.discovery.entryPoint)
    (h : s.assemble dir = .ok (.package p)) : ∃ cs, s.Declares dir p cs := by
  obtain ⟨a, b, c, hstages⟩ := exists_stages h
  rcases readCode_cases hname (path_files_readManifests hstages.readManifests).2
    hstages.readCode with ⟨hskip, -⟩ | ⟨hread, order, hrun⟩
  · exact ⟨[], h, fun _ => rfl, fun hread => absurd (hskip.symm.trans hread) (by decide)⟩
  · exact ⟨_, h, fun hskip => absurd (hskip.symm.trans hread) (by decide),
      fun _ => ⟨a, b, order, hstages.readManifests, hrun, rfl⟩⟩

/-- A package holds what its classes make. -/
lemma Declares.declaredBy (hname : IsName s.discovery.entryPoint) (h : s.Declares dir p cs) :
    p.DeclaredBy cs := by
  obtain ⟨a, b, c, hstages⟩ := exists_stages h.assembled
  have hsame := hstages.sameClasses
  obtain ⟨hmodels, hclasses⟩ : a.models = .empty ∧ a.classes = .empty := by
    obtain ⟨manifest, depends, status, words, rfl⟩ := eq_of_readManifests hstages.readManifests
    exact ⟨rfl, rfl⟩
  have hb : b.DeclaredBy cs := by
    rcases readCode_cases hname (path_files_readManifests hstages.readManifests).2
      hstages.readCode with ⟨hskip, rfl⟩ | ⟨hread, order, hrun⟩
    · rw [h.skipped hskip]
      exact ⟨fun n => by rw [hmodels]; rfl, fun i => by rw [hclasses]; rfl⟩
    · obtain ⟨a', b', order', ha', hrun', rfl⟩ := h.read hread
      obtain rfl : a = a' := Except.ok.inj (hstages.readManifests.symm.trans ha')
      obtain rfl : b = b' := hrun.unique hrun'
      exact declaredBy_of_run hmodels hclasses hrun'
  exact ⟨fun n => hsame.models ▸ hb.models n, fun i => hsame.classes ▸ hb.classes i⟩

/-- Packages that were read have their models under their names. -/
lemma namesModels_of_assemble (hname : IsName s.discovery.entryPoint)
    (h : s.assemble dir = .ok (.package p)) : p.NamesModels := fun n m hm => by
  obtain ⟨cs, hcs⟩ := exists_declares hname h
  exact ((hcs.declaredBy hname).name_covers hm).1

/-- **Classes.** A package holds each of its models as all pieces of it that its sources declare,
put together in the order of reading; a link of the model is the one that the last piece with this
link gives. All that a class with a name declares is kept; what a class without a name declares is
kept just if the last one of its identifier declares as much. -/
theorem assemble_classes (s : Site) (dir : Path) (p : Package)
    (hname : IsName s.discovery.entryPoint) (h : s.assemble dir = .ok (.package p)) :
    (∃ cs, s.Declares dir p cs) ∧ ∀ cs, s.Declares dir p cs →
      p.DeclaredBy cs ∧
      (∀ n m link, p.models.get? n = some m → m.inherits.get? link =
        ((piecesOf cs n).filterMap fun piece => piece.inherits.get? link).getLast?) ∧
      ∀ c ∈ cs, p.Keeps c ↔ c.2.adoptInheritName.name ≠ none ∨
        ∃ m, (unnamedOf cs c.1).getLast? = some m ∧ m.Covers c.2 := by
  refine ⟨exists_declares hname h, fun cs hcs => ?_⟩
  have hdeclared := hcs.declaredBy hname
  refine ⟨hdeclared, fun n m link hm => ?_, fun c hc => hdeclared.keeps_iff hc⟩
  exact Model.get?_inherits_mergeAll name_of_mem_piecesOf ((hdeclared.models n).symm.trans hm) link

/-! ### Packages in directories with one manifest -/

/-- A directory of a tree has a manifest with some text. -/
structure HasManifest (t : FileTree) (n manifest : String) : Prop where
  here : t.here = []
  isName : IsName n
  top : t.isDirectoryAt [] = true
  directory : t.isDirectoryAt [n] = true
  manifest : t.isDirectoryAt [n, "__manifest__.py"] = false ∧
    t.files.get? [n, "__manifest__.py"] = some manifest.toUTF8

variable {t : FileTree} {k text manifest : String} {u : Source.Unit}
  {fields : List (String × Value)}

lemma HasManifest.place? (h : HasManifest t n manifest) (hk : IsName k) :
    t.place? ((Path.mk n).join k) = some [n, k] := by
  rw [FileTree.place?_join t hk h.isName.1, FileTree.place?_of_isName h.here h.isName, if_pos h.top,
    Option.bind_some, if_pos h.directory]
  rfl

lemma HasManifest.readText? (h : HasManifest t n manifest) (hk : IsName k)
    (hfile : t.isDirectoryAt [n, k] = false ∧ t.files.get? [n, k] = some text.toUTF8) :
    t.readText? ((Path.mk n).join k) = some text :=
  FileTree.readText?_of_toUTF8
    (FileTree.readBytes?_eq_some_iff.2 ⟨_, h.place? hk, hfile.1, hfile.2⟩)

/-- The package as its manifest describes it. -/
def described (n : String) (fields : List (String × Value)) : Package :=
  ((Package.ofPath ⟨n⟩).addManifest fields).addDescription .empty

lemma name_described (hn : IsName n) (fields : List (String × Value)) :
    (described n fields).name = n := by
  have hfile : (Path.mk n).fileName? = some n := by
    rw [fileName?, components_of_isName hn]
    rfl
  change (Path.mk n).fileName?.getD n = n
  rw [hfile]
  rfl

section

variable (hs : s.discovery.manifestFiles = ["__manifest__.py"])

include hs

lemma HasManifest.manifestsIn (h : HasManifest s.files n manifest) :
    s.manifestsIn ⟨n⟩ = [(Path.mk n).join "__manifest__.py"] := by
  have hfile := FileTree.isFile_of_readText? (h.readText? (by decide) h.manifest)
  rw [Site.manifestsIn, hs]
  exact List.filter_eq_self.2 (by simpa using hfile)

lemma HasManifest.readManifests (hstop : s.discovery.stopwords = .empty)
    (h : HasManifest s.files n manifest) (hread : Source.readManifest manifest = .ok fields) :
    s.readManifests ⟨n⟩ (s.manifestsIn ⟨n⟩) = .ok (described n fields) := by
  have hone (p : Package) :
      s.readManifest p ((Path.mk n).join "__manifest__.py") = .ok (p.addManifest fields) := by
    rw [readManifest, h.readText? (by decide) h.manifest]
    dsimp only
    rw [hread]
  rw [h.manifestsIn hs, Site.readManifests, List.foldlM_cons, hone, hstop]
  rfl

/-- A directory with a manifest makes a package if its sources and data files can be read. -/
lemma HasManifest.exists_assemble (hstop : s.discovery.stopwords = .empty)
    (h : HasManifest s.files n manifest) (hread : Source.readManifest manifest = .ok fields)
    (hentry : s.files.isFile ((Path.mk n).join s.discovery.entryPoint) = true)
    (hcode : s.readCode ((Path.mk n).join s.discovery.entryPoint) (described n fields) = .ok q)
    (hdata : s.readDataFiles ((Path.mk n).parent?.getD ⟨n⟩)
      (s.readScripts ⟨n⟩ (s.readAside ⟨n⟩ q))
      (s.dataPaths ⟨n⟩ (s.readScripts ⟨n⟩ (s.readAside ⟨n⟩ q))) = .ok p) :
    ∃ digest, s.assemble ⟨n⟩ = .ok (.package (p.withDigest digest)) := by
  have hdirectory : s.files.isDirectory ⟨n⟩ = true := FileTree.isDirectory_iff.2
    ⟨_, (FileTree.place?_of_isName h.here h.isName).trans (if_pos h.top), h.directory⟩
  exact Site.exists_assemble hdirectory (by simp [h.manifestsIn hs]) hentry
    (h.readManifests hs hstop hread) hcode hdata

end

/-- A site of which only manifests and sources are read. -/
def codeSite (t : FileTree) : Site where
  files := t
  settings := { discovery :=
    { manifestFiles := ["__manifest__.py"]
      skipReadme := true
      skipData := true
      skipAssets := true
      skipLanguage := true } }

/-- A run from the entry point reads the code. -/
lemma readCode_of_run {entry : Path} {order : List Path} (hskip : s.discovery.skipPython = false)
    (hrun : s.QueueRun entry p [entry] order q) (hlen : order.length ≤ 2 * s.files.files.size) :
    s.readCode entry p = .ok q := by
  have hqueue : s.readSources p entry = .ok q := readQueue_of_run hrun (Nat.lt_succ_of_le hlen)
  rw [readCode, hskip, hqueue]
  rfl

/-- A run from the entry point makes a package of the directory. -/
lemma HasManifest.declares (h : HasManifest t n hello) {order : List Path}
    (hrun : (codeSite t).QueueRun ((Path.mk n).join "__init__.py") (described n [])
      [(Path.mk n).join "__init__.py"] order q)
    (hlen : order.length ≤ 2 * t.files.size)
    (hentry : t.isFile ((Path.mk n).join "__init__.py") = true) :
    ∃ digest, (codeSite t).Declares ⟨n⟩ (q.withDigest digest) ((codeSite t).classesIn order) := by
  have h : HasManifest (codeSite t).files n hello := h
  have hcode := readCode_of_run (s := codeSite t) rfl hrun hlen
  have hdata : (codeSite t).readDataFiles ((Path.mk n).parent?.getD ⟨n⟩)
      ((codeSite t).readScripts ⟨n⟩ ((codeSite t).readAside ⟨n⟩ q))
      ((codeSite t).dataPaths ⟨n⟩ ((codeSite t).readScripts ⟨n⟩ ((codeSite t).readAside ⟨n⟩ q))) =
        .ok q := rfl
  obtain ⟨digest, hassemble⟩ := h.exists_assemble rfl rfl readManifest_hello hentry hcode hdata
  exact ⟨digest, hassemble, fun hskip => absurd hskip Bool.false_ne_true,
    fun _ => ⟨_, _, _, h.readManifests rfl rfl readManifest_hello, hrun, rfl⟩⟩

/-- The names in a class: its identifier, what it is a piece of, its parents and its fields. -/
structure ClassOutline where
  identifier : String
  name : Option String
  parents : List String
  fields : List String
  deriving DecidableEq

def ClassOutline.of (c : String × Model) : ClassOutline :=
  ⟨c.1, c.2.adoptInheritName.name, c.2.parents, c.2.fields.keys⟩

/-- The imports and classes of a text. -/
def outline (text : String) : Option (List String × List ClassOutline) :=
  (Source.Unit.ofText (Source.runConverter .empty {}) text).toOption.map fun u =>
    (u.imports, u.classes.map ClassOutline.of)

lemma exists_readSource {imports : List String} {classes : List ClassOutline}
    (htext : t.readText? f = some text) (h : outline text = some (imports, classes)) :
    ∃ u, (codeSite t).readSource f = .ok u ∧ u.imports = imports ∧
      u.classes.map ClassOutline.of = classes := by
  obtain ⟨u, hu, houtline⟩ := exists_of_toOption_map h
  obtain ⟨himports, hclasses⟩ := Prod.mk.inj houtline
  refine ⟨u, ?_, himports, hclasses⟩
  have htext : (codeSite t).files.readText? f = some text := htext
  rw [readSource, htext]
  exact hu

/-- A run through a source that imports nothing. -/
lemma QueueRun.leaf (entry : Path) (hf : p.files.contains f = false) (hu : s.readSource f = .ok u)
    (himports : u.imports = []) : s.QueueRun entry p [f] [f]
      ((p.withFiles (p.files.insert f)).addSource u (s.importedPackages u.imports)) := by
  have hsources : [] ++ s.localSources f u.imports = [] := by
    rw [himports]
    rfl
  refine .read hf hu ?_
  rw [hsources]
  exact .done

/-- A run through a source that imports another one, which imports nothing. -/
lemma QueueRun.pair {g : Path} {v : Source.Unit} (entry : Path) (hf : p.files.contains f = false)
    (hg : p.files.contains g = false) (hkey : g.key ≠ f.key) (hu : s.readSource f = .ok u)
    (hsources : s.localSources f u.imports = [g]) (hv : s.readSource g = .ok v)
    (himports : v.imports = []) : ∃ q, s.QueueRun entry p [f] [f, g] q := by
  have hnew : ((p.withFiles (p.files.insert f)).addSource u
      (s.importedPackages u.imports)).files.contains g = false := by
    rw [files_addSource, ← Bool.not_eq_true, Package.withFiles, PathSet.contains_insert, hg]
    simpa using hkey
  have hrest := QueueRun.leaf entry hnew hv himports
  exact ⟨_, .read hf hu (by rw [hsources]; exact hrest)⟩

/-- A package whose entry point imports a source that has a class of the same identifier. -/
def helperTree : FileTree :=
  ((({} : FileTree).addFile ["sale", "__manifest__.py"] hello.toUTF8).addFile
    ["sale", "__init__.py"]
      "import two\n\nclass Helper:\n    first = fields.Char()\n".toUTF8).addFile
    ["sale", "two.py"] "class Helper:\n    second = fields.Char()\n".toUTF8

lemma hasManifest_helperTree : HasManifest helperTree "sale" hello where
  here := rfl
  isName := by decide
  top := by decide +kernel
  directory := by decide +kernel
  manifest := by decide +kernel

lemma readText?_helperTree :
    helperTree.readText? ((Path.mk "sale").join "__init__.py") =
        some "import two\n\nclass Helper:\n    first = fields.Char()\n" ∧
      helperTree.readText? ((Path.mk "sale").join "two.py") =
        some "class Helper:\n    second = fields.Char()\n" :=
  ⟨hasManifest_helperTree.readText? (by decide) (by decide +kernel),
    hasManifest_helperTree.readText? (by decide) (by decide +kernel)⟩

/-- The entry point imports the other source. -/
lemma localSources_helperTree :
    (codeSite helperTree).localSources ((Path.mk "sale").join "__init__.py") ["two"] =
      [(Path.mk "sale").join "two.py"] := by
  have hparent : ((Path.mk "sale").join "__init__.py").parent? = some ⟨"sale"⟩ := by
    rw [parent?, components_join_name _ (by decide), List.getLast?_concat]
    decide +kernel
  have hlocal : Import.classify (codeSite helperTree).discovery "two" = .localSource := by decide
  have hsplit : (String.ofList ("two".toList.dropWhile (· == '.'))).splitOn "." = ["two"] :=
    Text.splitOn_of_not_mem (c := '.') (by decide)
  have hfile : (codeSite helperTree).files.isFile ((Path.mk "sale").join ("two" ++ ".py")) = true :=
    FileTree.isFile_of_readText? readText?_helperTree.2
  simp only [localSources, hparent, Option.getD_some, List.flatMap_cons, List.flatMap_nil, hlocal,
    Import.resolve, hsplit, Import.resolveSegments, hfile, if_true, List.append_nil]
  rfl

/-- The package has both classes, the one of the entry point first. -/
lemma exists_helperPackage : ∃ p c d, (codeSite helperTree).Declares ⟨"sale"⟩ p [c, d] ∧
    ClassOutline.of c = ⟨"Helper", none, [], ["first"]⟩ ∧
    ClassOutline.of d = ⟨"Helper", none, [], ["second"]⟩ := by
  obtain ⟨u, hu, huimports, huclasses⟩ := exists_readSource readText?_helperTree.1
    (by decide +kernel : outline _ = some (["two"], [⟨"Helper", none, [], ["first"]⟩]))
  obtain ⟨v, hv, hvimports, hvclasses⟩ := exists_readSource readText?_helperTree.2
    (by decide +kernel : outline _ = some ([], [⟨"Helper", none, [], ["second"]⟩]))
  -- the run reads the entry point and then the other source
  have hfiles : (described "sale" []).files = .empty :=
    (path_files_readManifests (HasManifest.readManifests (s := codeSite helperTree) rfl rfl
      hasManifest_helperTree readManifest_hello)).2
  have hnew : ((Path.mk "sale").join "two.py").key ≠ ((Path.mk "sale").join "__init__.py").key := by
    intro h
    have hsame := components_of_key h
    rw [components_join_name _ (by decide), components_join_name _ (by decide)] at hsame
    simp at hsame
  obtain ⟨q, hrun⟩ := QueueRun.pair (s := codeSite helperTree) (p := described "sale" [])
    ((Path.mk "sale").join "__init__.py") (by simp [hfiles]) (by simp [hfiles]) hnew hu
    (huimports ▸ localSources_helperTree) hv hvimports
  obtain ⟨digest, hdeclares⟩ := hasManifest_helperTree.declares hrun
    (by decide +kernel : 2 ≤ 2 * helperTree.files.size)
    (FileTree.isFile_of_readText? readText?_helperTree.1)
  obtain ⟨x, hx, hxoutline⟩ := List.map_eq_singleton_iff.1 huclasses
  obtain ⟨y, hy, hyoutline⟩ := List.map_eq_singleton_iff.1 hvclasses
  have hclasses : (codeSite helperTree).classesIn
      [(Path.mk "sale").join "__init__.py", (Path.mk "sale").join "two.py"] = [x, y] := by
    simp [classesIn, unitsOf, hu, hv, hx, hy, Except.toOption]
  rw [hclasses] at hdeclares
  exact ⟨_, x, y, hdeclares, hxoutline, hyoutline⟩

theorem assemble_classes_helper : ∃ p c d, (codeSite helperTree).Declares ⟨"sale"⟩ p [c, d] ∧
    p.DeclaredBy [c, d] ∧ (p.Keeps d ↔ d.2.adoptInheritName.name ≠ none ∨
      ∃ m, (unnamedOf [c, d] d.1).getLast? = some m ∧ m.Covers d.2) := by
  obtain ⟨p, c, d, h, -⟩ := exists_helperPackage
  obtain ⟨hdeclared, -, hkeeps⟩ :=
    (assemble_classes (codeSite helperTree) ⟨"sale"⟩ p (by decide) h.assembled).2 [c, d] h
  exact ⟨p, c, d, h, hdeclared, hkeeps d (by simp)⟩

/-- It is not so that a package keeps all that its classes declare: a class without a name takes the
place of another one. -/
theorem not_keeps_of_declares : ¬ ∀ (s : Site) (dir : Path) (p : Package)
    (cs : List (String × Model)), IsName s.discovery.entryPoint → s.Declares dir p cs →
    ∀ c ∈ cs, p.Keeps c := by
  intro h
  obtain ⟨p, c, d, hdeclares, hc, hd⟩ := exists_helperPackage
  obtain ⟨hci, hcname, -, hcfields⟩ := ClassOutline.mk.inj hc
  obtain ⟨hdi, hdname, -, hdfields⟩ := ClassOutline.mk.inj hd
  have hkeeps := h (codeSite helperTree) ⟨"sale"⟩ p [c, d] (by decide) hdeclares c (by simp)
  rw [(hdeclares.declaredBy (by decide)).keeps_iff (by simp), hcname, hci] at hkeeps
  obtain ⟨m, hm, hcovers⟩ := hkeeps.resolve_left fun hne => hne rfl
  obtain rfl : d.2.adoptInheritName = m := by simpa [unnamedOf, hci, hdi, hcname, hdname] using hm
  have hfirst : "first" ∈ d.2.adoptInheritName.fields.keys := hcovers.fields (by simp [hcfields])
  rw [Model.fields_adoptInheritName, hdfields] at hfirst
  exact absurd hfirst (by decide)

end Site

end AddonAtlas
