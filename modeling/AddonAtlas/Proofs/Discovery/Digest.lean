import AddonAtlas.Proofs.Digest.FileSet
import AddonAtlas.Proofs.Discovery.Agreement

/-!
What the digest of a package tells.

The digest covers the files in the directory of a package, its data files, its manifests and all
files that were read for it. So two trees from which packages of one digest were read agree on all
that either of them was made from, as far as it is files: which directories bear the names of
scripts or of readmes the digest does not tell.
-/

namespace AddonAtlas

open AddonAtlas.Path FileTree

namespace Site

variable {s : Site} {u v : FileTree} {p q : Package} {dir f : Path}

/-! ## How a package comes about -/

/-- The paths that the digest of a package covers. -/
def touched (s : Site) (dir : Path) (p : Package) : List Path :=
  s.filesIn dir ++ s.dataPaths dir p ++ s.manifestsIn dir ++ p.files.paths

/-- The stages of a package: described by its manifests, with its sources, with all that is read. -/
structure Stages (s : Site) (dir : Path) (described coded full p : Package) : Prop where
  directory : s.files.isDirectory dir = true
  readManifests : s.readManifests dir (s.manifestsIn dir) = .ok described
  readCode : s.readCode (dir.join s.discovery.entryPoint) described = .ok coded
  readDataFiles : s.readDataFiles (dir.parent?.getD dir) (s.readScripts dir (s.readAside dir coded))
    (s.dataPaths dir p) = .ok full
  manifest : p.manifest = described.manifest
  hashsum : p.hashsum = Digest.fileSet s.files dir (s.touched dir p)
  digest : p = full.withDigest p.hashsum

lemma dataPaths_congr (h : p.manifest = q.manifest) : s.dataPaths dir p = s.dataPaths dir q := by
  simp only [dataPaths, Package.dataFiles, h]

lemma manifest_readDataFiles {parent : Path} {l : List Path}
    (h : s.readDataFiles parent p l = .ok q) : q.manifest = p.manifest := by
  have hsame : s.readDataFiles parent p l =
      (s.readDataFiles parent p l).map fun q => q.withManifest p.manifest :=
    readDataFiles_withManifest l p
  rw [h] at hsame
  have hq : q = q.withManifest p.manifest := Except.ok.inj hsame
  rw [hq]
  rfl

lemma readPackage_of_assemble (h : s.assemble dir = .ok (.package p)) :
    s.files.isDirectory dir = true ∧
      s.readPackage dir (s.manifestsIn dir) (dir.join s.discovery.entryPoint) = .ok p := by
  simp only [assemble] at h
  split_ifs at h with hdir hmanifests hentry
  · cases h
  · cases h
  · obtain ⟨q, hq, hcandidate⟩ := exists_of_map h
    obtain rfl : q = p := Candidate.package.inj hcandidate
    exact ⟨by simpa using hdir, hq⟩

lemma exists_stages (h : s.assemble dir = .ok (.package p)) :
    ∃ described coded full, s.Stages dir described coded full p := by
  obtain ⟨hdir, hread⟩ := readPackage_of_assemble h
  rw [readPackage_eq] at hread
  obtain ⟨described, hdescribed, hread⟩ := exists_of_bind hread
  obtain ⟨coded, hcoded, hread⟩ := exists_of_bind hread
  obtain ⟨full, hfull, hread⟩ := exists_of_bind hread
  obtain rfl := Except.ok.inj hread
  have hscripts : (s.readScripts dir (s.readAside dir coded)).manifest = described.manifest := by
    rw [manifest_readScripts, manifest_readAside, manifest_readCode hcoded]
  have hmanifest := (manifest_readDataFiles (eq_of_mapError hfull)).trans hscripts
  have hpaths : s.dataPaths dir (s.readScripts dir (s.readAside dir coded)) =
      s.dataPaths dir full := dataPaths_congr (hscripts.trans hmanifest.symm)
  refine ⟨described, coded, full, hdir, hdescribed, hcoded, ?_, hmanifest, ?_, rfl⟩
  · rw [← eq_of_mapError hfull, hpaths]
    rfl
  · rw [hpaths]
    rfl

variable {a b c a' b' c' : Package}

/-- A directory whose stages can all be gone through makes a package. -/
lemma exists_assemble (hdirectory : s.files.isDirectory dir = true)
    (hmanifests : s.manifestsIn dir ≠ [])
    (hentry : s.files.isFile (dir.join s.discovery.entryPoint) = true)
    (ha : s.readManifests dir (s.manifestsIn dir) = .ok a)
    (hb : s.readCode (dir.join s.discovery.entryPoint) a = .ok b)
    (hc : s.readDataFiles (dir.parent?.getD dir) (s.readScripts dir (s.readAside dir b))
      (s.dataPaths dir (s.readScripts dir (s.readAside dir b))) = .ok c) :
    ∃ digest, s.assemble dir = .ok (.package (c.withDigest digest)) := by
  have hmanifests : (s.manifestsIn dir).isEmpty = false := List.isEmpty_eq_false_iff.2 hmanifests
  obtain ⟨digest, hread⟩ : ∃ digest, s.readPackage dir (s.manifestsIn dir)
      (dir.join s.discovery.entryPoint) = .ok (c.withDigest digest) := by
    simp only [readPackage_eq, ha, readContents, hb, readData, hc, Except.mapError, bind,
      Except.bind, pure, Except.pure]
    exact ⟨_, rfl⟩
  refine ⟨digest, ?_⟩
  simp only [assemble, hdirectory, hmanifests, hentry, Bool.not_true, Bool.false_eq_true, if_false]
  exact congrArg (Except.map Candidate.package) hread

/-- The files of a package stand under their own keys. -/
lemma Stages.keyed (hname : IsName s.discovery.entryPoint) (h : s.Stages dir a b c p) :
    p.files.Keyed := by
  have hcoded := (readCode_kept hname (path_files_readManifests h.readManifests).2 h.readCode).2.2
  rw [← files_readAside (s := s) b] at hcoded
  rw [h.digest]
  exact (grows_readDataFiles h.readDataFiles).keyed ((grows_readScripts _).keyed hcoded)

/-- Trees that agree on all that a digest covers agree on the files of the package. -/
lemma Stages.agreeOn_files (hname : IsName s.discovery.entryPoint) (h : s.Stages dir a b c p)
    (hsame : ∀ f, f.key ∈ (s.touched dir p).map key → u.readBytes? f = v.readBytes? f) :
    u.AgreeOn v p.files := fun f hf => by
  refine hsame f ?_
  rw [touched, List.map_append]
  exact List.mem_append_right _ ((h.keyed hname).mem_paths hf)

/-- The files that sources are read from are among those of the package. -/
lemma Stages.contains_of_coded (h : s.Stages dir a b c p) (hf : b.files.contains f = true) :
    p.files.contains f = true := by
  rw [← files_readAside (s := s) b] at hf
  rw [h.digest]
  exact (grows_readDataFiles h.readDataFiles).files f ((grows_readScripts _).files f hf)

/-- Trees that agree on the manifests that either has in a directory have the same ones there. -/
lemma manifestsIn_congr
    (hu : ∀ f ∈ (s.withTree u).manifestsIn dir, u.readBytes? f = v.readBytes? f)
    (hv : ∀ f ∈ (s.withTree v).manifestsIn dir, u.readBytes? f = v.readBytes? f) :
    (s.withTree u).manifestsIn dir = (s.withTree v).manifestsIn dir := by
  refine List.filter_congr fun f hf => ?_
  rw [Bool.eq_iff_iff]
  constructor
  · exact fun hfile =>
      (isFile_of_readBytes? (hu f (List.mem_filter.2 ⟨hf, hfile⟩))).symm.trans hfile
  · exact fun hfile =>
      (isFile_of_readBytes? (hv f (List.mem_filter.2 ⟨hf, hfile⟩))).trans hfile

/-- Packages of the same directory are the same, but for measures, if the trees that they come from
agree on all that their digests cover. -/
lemma core_eq_of_stages (hname : IsName s.discovery.entryPoint)
    (hu : u.WellNamed) (hv : v.WellNamed)
    (hp : (s.withTree u).Stages dir a b c p) (hq : (s.withTree v).Stages dir a' b' c' q)
    (hstays : ∀ f, p.files.contains f = true → (s.withTree u).ImportsBelow f)
    (hscripts : ∀ f, isScript f = true → u.isDirectory f = v.isDirectory f)
    (hreadmes : ∀ n, Package.isReadme n = true →
      u.isDirectory (dir.join n) = v.isDirectory (dir.join n))
    (hsame : ∀ f, f.key ∈ ((s.withTree u).touched dir p).map key → u.readBytes? f = v.readBytes? f)
    (hsame' : ∀ f, f.key ∈ ((s.withTree v).touched dir q).map key → u.readBytes? f = v.readBytes? f)
    (hhash : p.hashsum = q.hashsum) : p.core = q.core := by
  have hmem {t : FileTree} {r : Package} {f : Path} (hf : f ∈ (s.withTree t).touched dir r) :=
    List.mem_map_of_mem (f := key) hf
  -- the same manifests are read
  have hmanifests : (s.withTree u).manifestsIn dir = (s.withTree v).manifestsIn dir :=
    manifestsIn_congr (fun f hf => hsame f (hmem (by simp [touched, hf])))
      fun f hf => hsame' f (hmem (by simp [touched, hf]))
  obtain rfl : a = a' := by
    have hread := hq.readManifests
    rw [← hmanifests, ← readManifests_congr fun f hf => hsame f (hmem (by simp [touched, hf])),
      hp.readManifests] at hread
    exact Except.ok.inj hread
  obtain ⟨hpath, hfiles⟩ := path_files_readManifests hp.readManifests
  -- the same sources
  have hfull : u.AgreeOn v c.files := by
    have hfiles := Stages.agreeOn_files (s := s.withTree u) hname hp hsame
    rwa [hp.digest] at hfiles
  have hfull' : u.AgreeOn v c'.files := by
    have hfiles := Stages.agreeOn_files (s := s.withTree v) hname hq hsame'
    rwa [hq.digest] at hfiles
  have hread := hfull.mono (grows_readDataFiles hp.readDataFiles).files
  have hread' := hfull'.mono (grows_readDataFiles hq.readDataFiles).files
  have hcoded := hread.mono (grows_readScripts _).files
  have hcoded' := hread'.mono (grows_readScripts _).files
  rw [files_readAside] at hcoded hcoded'
  obtain rfl : b = b' := readCode_unique hname hfiles hp.readCode hq.readCode
    (fun f hf => hstays f (hp.contains_of_coded hf)) hcoded hcoded'
  -- the same readme, scripts and data files
  obtain rfl : b.path = dir :=
    (readCode_kept (s := s.withTree u) hname hfiles hp.readCode).1.trans hpath
  have hreadme : b.readme u = b.readme v := readme_congr (s := s) hu hv hp.directory hq.directory
    (fun f hf => hsame f (hmem (by simp [touched, hf])))
    (fun f hf => hsame' f (hmem (by simp [touched, hf]))) hreadmes
  have hdata : (s.withTree v).dataPaths b.path q = (s.withTree u).dataPaths b.path p :=
    dataPaths_congr (hq.manifest.trans hp.manifest.symm)
  have hdatafiles := hq.readDataFiles
  rw [hdata] at hdatafiles
  have hcore := core_readDataFiles_congr
    (core_readScripts_congr hu hv hscripts (core_readAside_congr hreadme) hread hread')
    (fun f hf => hsame f (hmem (by simp [touched, hf]))) hp.readDataFiles hdatafiles hfull hfull'
  have hdigest (r : Package) (digest : String) :
      (r.withDigest digest).core = r.core.withDigest digest := rfl
  rw [hp.digest, hq.digest, hdigest, hdigest, hcore, hhash]

/-- **Digests of packages.** Packages that were read in one directory of two trees and have one
digest are the same, but for what external programs and the clock say about them, if no import of
their sources has an absolute segment and the same directories bear the names of scripts and, in
their directory, of readmes. -/
theorem core_eq_of_hashsum (s : Site) (dir : Path) (u v : FileTree) (p q : Package)
    (hname : IsName s.discovery.entryPoint) (hu : u.WellNamed) (hv : v.WellNamed)
    (hp : (s.withTree u).assemble dir = .ok (.package p))
    (hq : (s.withTree v).assemble dir = .ok (.package q))
    (hcomp : Digest.Comparable dir u v ((s.withTree u).touched dir p)
      ((s.withTree v).touched dir q))
    (hstays : ∀ f, p.files.contains f = true → (s.withTree u).ImportsBelow f)
    (hscripts : ∀ f, isScript f = true → u.isDirectory f = v.isDirectory f)
    (hreadmes : ∀ n, Package.isReadme n = true →
      u.isDirectory (dir.join n) = v.isDirectory (dir.join n))
    (h : p.hashsum = q.hashsum) : p.core = q.core := by
  obtain ⟨a, b, c, hpstages⟩ := exists_stages hp
  obtain ⟨a', b', c', hqstages⟩ := exists_stages hq
  obtain ⟨here, hplace, -⟩ := isDirectory_iff.1 hpstages.directory
  have hbase := text_ne_of_place? hplace
  have hsets := hpstages.hashsum.symm.trans (h.trans hqstages.hashsum)
  exact core_eq_of_stages hname hu hv hpstages hqstages hstays hscripts hreadmes
    (fun f hf => Digest.readBytes?_of_fileSet hbase hcomp hsets hf)
    (fun f hf => (Digest.readBytes?_of_fileSet hbase hcomp.symm hsets.symm hf).symm) h

/-! ### Trees of one text -/

/-- An empty manifest, which says nothing else but hello. -/
def hello : String := "\x7b\x7d#hello"

/-- A site of which only manifests and readmes are read. -/
def quietSite : Site where
  files := {}
  settings := { discovery :=
    { manifestFiles := ["__manifest__.py"]
      skipPython := true
      skipData := true
      skipAssets := true
      skipLanguage := true } }

/-- A package of three files. -/
def helloTree : FileTree :=
  ((({} : FileTree).addFile ["sale", "__init__.py"] hello.toUTF8).addFile
    ["sale", "__manifest__.py"] hello.toUTF8).addFile ["sale", "readme.md"] hello.toUTF8

/-- A tree that holds the package, and perhaps directories beside its files. -/
structure HoldsHello (t : FileTree) : Prop where
  here : t.here = []
  top : t.isDirectoryAt [] = true
  directory : t.isDirectoryAt ["sale"] = true
  file : ∀ n ∈ ["__init__.py", "__manifest__.py", "readme.md"],
    t.isDirectoryAt ["sale", n] = false ∧ t.files.get? ["sale", n] = some hello.toUTF8
  others : ∀ n ∈ (t.namesAt ["sale"]).toList,
    n ∈ ["__init__.py", "__manifest__.py", "readme.md"] ∨ t.isDirectoryAt ["sale", n] = true
  wellNamed : t.WellNamed

variable {t : FileTree}

/-- The files of the package. -/
def helloFiles : List Path :=
  ["__init__.py", "__manifest__.py", "readme.md"].map (Path.mk "sale").join

/-- The manifest of the package. -/
def helloManifest : Path := (Path.mk "sale").join "__manifest__.py"

lemma helloManifest_mem : helloManifest ∈ helloFiles := List.mem_map_of_mem (by decide)

lemma HoldsHello.place? (h : HoldsHello t) {n : String} (hn : IsName n) :
    t.place? ((Path.mk "sale").join n) = some ["sale", n] := by
  rw [place?_join t hn (by decide), place?_of_isName h.here (by decide), if_pos h.top,
    Option.bind_some, if_pos h.directory]
  rfl

lemma HoldsHello.readBytes? (h : HoldsHello t) : ∀ f ∈ helloFiles,
    t.readBytes? f = some hello.toUTF8 := by
  intro f hf
  obtain ⟨n, hn, rfl⟩ := List.mem_map.1 hf
  have hname : IsName n := by revert n; decide
  exact readBytes?_eq_some_iff.2 ⟨_, h.place? hname, (h.file n hn).1, (h.file n hn).2⟩

lemma HoldsHello.isDirectory (h : HoldsHello t) : t.isDirectory ⟨"sale"⟩ = true :=
  isDirectory_iff.2 ⟨_, (place?_of_isName h.here (by decide)).trans (if_pos h.top), h.directory⟩

lemma HoldsHello.list? (h : HoldsHello t) :
    t.list? ⟨"sale"⟩ = some (t.namesAt ["sale"]).toList :=
  list?_of_place? ((place?_of_isName h.here (by decide)).trans (if_pos h.top)) h.directory

lemma HoldsHello.filesIn (h : HoldsHello t) :
    (quietSite.withTree t).filesIn ⟨"sale"⟩ = helloFiles := by
  have hlist : (quietSite.withTree t).files.list? ⟨"sale"⟩ = some (t.namesAt ["sale"]).toList :=
    h.list?
  rw [Site.filesIn, hlist, Option.getD_some, List.filter_map, helloFiles]
  congr 1
  refine ((NameSet.sorted _).filter _).eq_of_mem_iff (by decide) fun n => ?_
  rw [List.mem_filter, Function.comp_apply]
  constructor
  · rintro ⟨hn, hfile⟩
    refine (h.others n hn).resolve_right fun hdir => ?_
    have hfile : t.isFile ((Path.mk "sale").join n) = true := hfile
    obtain ⟨c, hc⟩ := isFile_iff.1 hfile
    obtain ⟨here, hplace, hnone, -⟩ := readBytes?_eq_some_iff.1 hc
    have hname : IsName n := h.wellNamed.isName_of_mem_list? (by rw [h.list?]; exact hn)
    rw [← Option.some.inj ((h.place? hname).symm.trans hplace), hdir] at hnone
    cases hnone
  · intro hn
    have hfile : t.isFile ((Path.mk "sale").join n) = true :=
      isFile_iff.2 ⟨_, h.readBytes? _ (List.mem_map_of_mem hn)⟩
    refine ⟨mem_namesAt.2 (.inl (OrdMap.mem_keys_iff.2 ⟨_, (h.file n hn).2⟩)), hfile⟩

lemma HoldsHello.isFile (h : HoldsHello t) : ∀ f ∈ helloFiles, t.isFile f = true :=
  fun f hf => isFile_iff.2 ⟨_, h.readBytes? f hf⟩

lemma HoldsHello.manifestsIn (h : HoldsHello t) :
    (quietSite.withTree t).manifestsIn ⟨"sale"⟩ = [helloManifest] := by
  have hself : [helloManifest].filter t.isFile = [helloManifest] :=
    List.filter_eq_self.2 (by simpa using h.isFile _ helloManifest_mem)
  exact hself

lemma readManifest_hello : Source.readManifest hello = .ok [] := by
  have hempty : (Source.readManifest hello).toOption.any List.isEmpty = true := by decide +kernel
  cases hread : Source.readManifest hello with
  | error e =>
    rw [hread] at hempty
    cases hempty
  | ok fields =>
    rw [hread] at hempty
    rw [List.isEmpty_iff.1 hempty]

/-- The package as its manifest describes it. -/
def helloDescribed : Package := ((Package.ofPath ⟨"sale"⟩).addManifest []).addDescription .empty

/-- The package as it is read from a tree. -/
def helloPackage (t : FileTree) : Package :=
  (helloDescribed.addKeywords .empty (helloDescribed.readme t)).withDigest
    (Digest.fileSet t ⟨"sale"⟩ (helloFiles ++ [helloManifest]))

lemma HoldsHello.readManifests (h : HoldsHello t) :
    (quietSite.withTree t).readManifests ⟨"sale"⟩ [helloManifest] = .ok helloDescribed := by
  have htext : (quietSite.withTree t).files.readText? helloManifest = some hello :=
    readText?_of_toUTF8 (h.readBytes? _ helloManifest_mem)
  have hread (p : Package) :
      (quietSite.withTree t).readManifest p helloManifest = .ok (p.addManifest []) := by
    rw [readManifest, htext]
    dsimp only
    rw [readManifest_hello]
  rw [Site.readManifests, List.foldlM_cons, hread]
  rfl

/-- Each tree that holds the package gives it. -/
lemma HoldsHello.assemble (h : HoldsHello t) :
    (quietSite.withTree t).assemble ⟨"sale"⟩ = .ok (.package (helloPackage t)) := by
  have hdirectory : (quietSite.withTree t).files.isDirectory ⟨"sale"⟩ = true := h.isDirectory
  have hentry : (quietSite.withTree t).files.isFile
      ((Path.mk "sale").join (quietSite.withTree t).discovery.entryPoint) = true :=
    h.isFile ((Path.mk "sale").join "__init__.py") (List.mem_map_of_mem (by decide))
  have hcode : (quietSite.withTree t).readCode
      ((Path.mk "sale").join (quietSite.withTree t).discovery.entryPoint) helloDescribed =
        .ok helloDescribed := if_pos rfl
  have haside : (quietSite.withTree t).readAside ⟨"sale"⟩ helloDescribed =
      helloDescribed.addKeywords .empty (helloDescribed.readme t) := rfl
  have hscripts (p : Package) : (quietSite.withTree t).readScripts ⟨"sale"⟩ p = p := if_pos rfl
  have hdata (p : Package) : (quietSite.withTree t).dataPaths ⟨"sale"⟩ p = [] := if_pos rfl
  have hfiles : (helloDescribed.addKeywords .empty (helloDescribed.readme t)).files = .empty :=
    (path_files_readManifests h.readManifests).2
  have hcontents : (quietSite.withTree t).readContents ⟨"sale"⟩ [helloManifest]
      ((Path.mk "sale").join (quietSite.withTree t).discovery.entryPoint) helloDescribed =
        .ok (helloPackage t) := by
    simp only [readContents, hcode, haside, hscripts, readData, hdata, h.filesIn, readDataFiles,
      List.foldlM_nil, pure, Except.pure, Except.mapError, bind, Except.bind, hfiles]
    rfl
  simp only [Site.assemble, hdirectory, h.manifestsIn, hentry, readPackage_eq, h.readManifests,
    Bool.not_true, Bool.false_eq_true, if_false, List.isEmpty_cons, bind, Except.bind, hcontents,
    Except.map]

lemma HoldsHello.touched (h : HoldsHello t) :
    (quietSite.withTree t).touched ⟨"sale"⟩ (helloPackage t) = helloFiles ++ [helloManifest] := by
  rw [Site.touched, h.filesIn, h.manifestsIn]
  rfl

lemma readBytes?_of_touched (h : HoldsHello t) :
    ∀ f ∈ helloFiles ++ [helloManifest], t.readBytes? f = some hello.toUTF8 := by
  intro f hf
  rcases List.mem_append.1 hf with hf | hf
  · exact h.readBytes? f hf
  · obtain rfl := List.mem_singleton.1 hf
    exact h.readBytes? _ helloManifest_mem

variable {t' : FileTree}

lemma fileLines_hello (h : HoldsHello t) (h' : HoldsHello t') :
    Digest.fileLines t ⟨"sale"⟩ (helloFiles ++ [helloManifest]) =
      Digest.fileLines t' ⟨"sale"⟩ (helloFiles ++ [helloManifest]) :=
  Digest.fileLines_congr fun f hf =>
    (readBytes?_of_touched h f hf).trans (readBytes?_of_touched h' f hf).symm

/-- All of these trees give the package the same digest. -/
lemma hashsum_hello (h : HoldsHello t) (h' : HoldsHello t') :
    (helloPackage t).hashsum = (helloPackage t').hashsum := by
  have hhash (t : FileTree) : (helloPackage t).hashsum =
      Digest.fileSet t ⟨"sale"⟩ (helloFiles ++ [helloManifest]) := rfl
  rw [hhash, hhash, Digest.fileSet_eq, Digest.fileSet_eq, Digest.listing, Digest.listing,
    fileLines_hello h h']

lemma comparable_hello (h : HoldsHello t) (h' : HoldsHello t') :
    Digest.Comparable ⟨"sale"⟩ t t' ((quietSite.withTree t).touched ⟨"sale"⟩ (helloPackage t))
      ((quietSite.withTree t').touched ⟨"sale"⟩ (helloPackage t')) := by
  rw [h.touched, h'.touched]
  have hnames : ∀ f ∈ helloFiles ++ [helloManifest],
      ∃ n, IsName n ∧ f = (Path.mk "sale").join n := by
    have hnames : ∀ n ∈ ["__init__.py", "__manifest__.py", "readme.md", "__manifest__.py"],
      IsName n := by decide
    intro f hf
    obtain ⟨n, hn, rfl⟩ : ∃ n ∈ ["__init__.py", "__manifest__.py", "readme.md", "__manifest__.py"],
      (Path.mk "sale").join n = f := List.mem_map.1 hf
    exact ⟨n, hnames n hn, rfl⟩
  have hplain : ∀ f ∈ helloFiles ++ [helloManifest],
    '\n' ∉ f.text.toList ∧ '\\' ∉ f.text.toList := by decide
  have hbelow : ∀ f ∈ helloFiles ++ [helloManifest], (f.below? ⟨"sale"⟩).isSome = true := by
    intro f hf
    obtain ⟨n, hn, rfl⟩ := hnames f hf
    rw [isSome_below?, components_join_name _ hn]
    exact List.prefix_append _ _
  exact {
    plain := fun f hf => hplain f ((List.mem_append.1 hf).elim id id)
    trails := fun f hf => by
      obtain ⟨n, hn, rfl⟩ := hnames f ((List.mem_append.1 hf).elim id id)
      rw [trails_join _ (isAbsolute_of_isName hn), trails_of_isName hn]
    apart := fun f hf g hg _ => (hbelow f hf).trans (hbelow g hg).symm
    contents := fun f hf g hg c d hc hd _ => by
      rw [readBytes?_of_touched h f hf] at hc
      rw [readBytes?_of_touched h' g hg] at hd
      exact (Option.some.inj hc).symm.trans (Option.some.inj hd)
    listings := fun _ => by rw [Digest.listing, Digest.listing, fileLines_hello h h'] }

lemma holdsHello_helloTree : HoldsHello helloTree where
  here := rfl
  top := by decide +kernel
  directory := by decide +kernel
  file := by decide +kernel
  others := by decide +kernel
  wellNamed := ((wellNamed_empty.addFile (by decide) _).addFile (by decide) _).addFile (by decide) _

lemma holdsHello_notes : HoldsHello (helloTree.addFile ["notes"] hello.toUTF8) where
  here := rfl
  top := by decide +kernel
  directory := by decide +kernel
  file := by decide +kernel
  others := by decide +kernel
  wellNamed := holdsHello_helloTree.wellNamed.addFile (by decide) _

lemma holdsHello_directory : HoldsHello (helloTree.addDirectory ["sale", "README.d"]) where
  here := rfl
  top := by decide +kernel
  directory := by decide +kernel
  file := by decide +kernel
  others := by decide +kernel
  wellNamed := holdsHello_helloTree.wellNamed.addDirectory (by decide)

theorem core_eq_of_hashsum_notes :
    (helloPackage helloTree).core =
      (helloPackage (helloTree.addFile ["notes"] hello.toUTF8)).core := by
  have hsame : (helloTree.addFile ["notes"] hello.toUTF8).directories = helloTree.directories :=
    OrdSet.insert_of_mem (by decide +kernel)
  have hdirectories (f : Path) := isDirectory_of_directories hsame.symm rfl f
  have hfiles : (helloPackage helloTree).files = .empty :=
    (path_files_readManifests holdsHello_helloTree.readManifests).2
  exact core_eq_of_hashsum quietSite ⟨"sale"⟩ helloTree (helloTree.addFile ["notes"] hello.toUTF8)
    (helloPackage helloTree) (helloPackage (helloTree.addFile ["notes"] hello.toUTF8)) (by decide)
    holdsHello_helloTree.wellNamed holdsHello_notes.wellNamed holdsHello_helloTree.assemble
    holdsHello_notes.assemble (comparable_hello holdsHello_helloTree holdsHello_notes)
    (fun f hf => absurd (hfiles ▸ hf) (by simp)) (fun f _ => hdirectories f)
    (fun n _ => hdirectories _)
    (hashsum_hello holdsHello_helloTree holdsHello_notes)

/-! ### A directory with the name of a readme -/

/-- What the first readme of the package says is among its words. -/
lemma hello_mem_words (h : HoldsHello t) {n : String}
    (hfind : (t.namesAt ["sale"]).toList.find? Package.isReadme = some n) :
    "hello" ∈ (helloPackage t).words.toList ↔
      ∃ text, t.readText? ((Path.mk "sale").join n) = some text ∧
        "hello" ∈ (Keywords.extract .empty text).toList := by
  have hname : (Path.mk "sale").fileName? = some "sale" := by
    rw [fileName?, components_of_isName (by decide)]
    rfl
  have hempty : "hello" ∉ helloDescribed.words.toList := by
    rw [helloDescribed, Package.ofPath, hname]
    decide +kernel
  have hpath : helloDescribed.path = ⟨"sale"⟩ := (path_files_readManifests h.readManifests).1
  have hwords : (helloPackage t).words =
      helloDescribed.words.union (Keywords.extract .empty (helloDescribed.readme t)) := rfl
  have hreadme : helloDescribed.readme t =
      (t.readText? ((Path.mk "sale").join n)).getD "" := by
    rw [Package.readme, readmePath?_eq, hpath, h.list?, Option.getD_some, hfind]
    rfl
  rw [hwords, OrdSet.mem_union, hreadme]
  cases t.readText? ((Path.mk "sale").join n) with
  | none =>
    have hnothing : "hello" ∉ (Keywords.extract .empty "").toList := by decide +kernel
    simp [hempty, hnothing]
  | some text => simp [hempty]

/-- It is not so that the digest of a package tells all of it: a directory may stand before the
readme. -/
theorem not_core_eq_of_hashsum : ¬ ∀ (s : Site) (dir : Path) (u v : FileTree) (p q : Package),
    IsName s.discovery.entryPoint → u.WellNamed → v.WellNamed →
    (s.withTree u).assemble dir = .ok (.package p) →
    (s.withTree v).assemble dir = .ok (.package q) →
    Digest.Comparable dir u v ((s.withTree u).touched dir p) ((s.withTree v).touched dir q) →
    p.hashsum = q.hashsum → p.core = q.core := by
  intro h
  have hcore := h quietSite ⟨"sale"⟩ helloTree (helloTree.addDirectory ["sale", "README.d"]) _ _
    (by decide) holdsHello_helloTree.wellNamed holdsHello_directory.wellNamed
    holdsHello_helloTree.assemble holdsHello_directory.assemble
    (comparable_hello holdsHello_helloTree holdsHello_directory)
    (hashsum_hello holdsHello_helloTree holdsHello_directory)
  have hwords : (helloPackage helloTree).words =
      (helloPackage (helloTree.addDirectory ["sale", "README.d"])).words :=
    congrArg Package.words hcore
  have hreadme := holdsHello_helloTree.readBytes? ((Path.mk "sale").join "readme.md")
    (List.mem_map_of_mem (by decide))
  have hthere : "hello" ∈ (helloPackage helloTree).words.toList :=
    (hello_mem_words (n := "readme.md") holdsHello_helloTree (by decide +kernel)).2
      ⟨hello, readText?_of_toUTF8 hreadme, by decide +kernel⟩
  rw [hwords, hello_mem_words (n := "README.d") holdsHello_directory (by decide +kernel)] at hthere
  obtain ⟨text, htext, -⟩ := hthere
  have hdirectory : (helloTree.addDirectory ["sale", "README.d"]).isDirectory
      ((Path.mk "sale").join "README.d") = true :=
    isDirectory_iff.2 ⟨_, holdsHello_directory.place? (by decide), by decide +kernel⟩
  rw [readText?, readBytes?_of_isDirectory hdirectory] at htext
  cases htext

end Site

end AddonAtlas
