import AddonAtlas.Proofs.Discovery.DataFiles
import AddonAtlas.Proofs.Discovery.Sources
import AddonAtlas.Proofs.Glob.Search

/-!
The same package read from two trees.

Whatever is read on the way to a package ends among its files. So if two trees agree on the files
of both packages, each step of the one run is a step of the other: an import, a pattern or a data
file leads to the same files in both, and those say the same.
-/

namespace AddonAtlas

open AddonAtlas.Path

/-- Two trees agree on a set of files. -/
def FileTree.AgreeOn (u v : FileTree) (files : PathSet) : Prop :=
  ∀ f, files.contains f = true → u.readBytes? f = v.readBytes? f

namespace Package

/-- A package without what external programs and the clock say about it. -/
def core (p : Package) : Package :=
  { p with
    scriptModules := p.scriptModules.mapValues fun _ m => { m with complexity := none }
    language := .empty
    durationSeconds := 0.0 }

@[simp] lemma name_core (p : Package) : p.core.name = p.name := rfl

@[simp] lemma manifest_core (p : Package) : p.core.manifest = p.manifest := rfl

@[simp] lemma files_core (p : Package) : p.core.files = p.files := rfl

end Package

namespace FileTree

variable {u v : FileTree} {f : Path} {files files' : PathSet}

lemma readText?_of_readBytes? (h : u.readBytes? f = v.readBytes? f) :
    u.readText? f = v.readText? f := by rw [readText?, readText?, h]

lemma isFile_of_readBytes? (h : u.readBytes? f = v.readBytes? f) : u.isFile f = v.isFile f := by
  rw [Bool.eq_iff_iff, isFile_iff, isFile_iff, h]

lemma AgreeOn.mono (h : u.AgreeOn v files')
    (hsub : ∀ f, files.contains f = true → files'.contains f = true) : u.AgreeOn v files :=
  fun f hf => h f (hsub f hf)

end FileTree

namespace Site

open FileTree

/-- A site with another tree. -/
def withTree (s : Site) (t : FileTree) : Site := { s with files := t }

variable {s : Site} {u v : FileTree} {p q p' q' : Package} {f : Path} {parent dir : Path}

lemma readText?_withTree (s : Site) (h : u.readBytes? f = v.readBytes? f) :
    (s.withTree u).files.readText? f = (s.withTree v).files.readText? f :=
  readText?_of_readBytes? h

/-! ## Manifests -/

lemma readManifests_congr {l : List Path} (h : ∀ f ∈ l, u.readBytes? f = v.readBytes? f) :
    (s.withTree u).readManifests dir l = (s.withTree v).readManifests dir l := by
  have hfold (p : Package) : l.foldlM (s.withTree u).readManifest p =
      l.foldlM (s.withTree v).readManifest p := by
    induction l generalizing p with
    | nil => rfl
    | cons f l ih =>
      obtain ⟨hf, hl⟩ := List.forall_mem_cons.1 h
      have hstep : (s.withTree u).readManifest p f = (s.withTree v).readManifest p f := by
        rw [readManifest, readManifest, readText?_withTree s hf]
      rw [List.foldlM_cons, List.foldlM_cons, hstep]
      exact bind_congr fun q => ih hl q
  rw [readManifests, hfold]
  rfl

/-- Manifests describe a package and put nothing else into it. -/
lemma eq_of_readManifests {l : List Path} (h : s.readManifests dir l = .ok q) :
    ∃ manifest depends status words, q = { Package.ofPath dir with
      manifest := manifest, depends := depends, status := status, words := words } := by
  have hfold (l : List Path) {p q : Package} (h : l.foldlM s.readManifest p = .ok q) :
      ∃ manifest depends, q = { p with manifest := manifest, depends := depends } := by
    induction l generalizing p with
    | nil =>
      obtain rfl := Except.ok.inj h
      exact ⟨p.manifest, p.depends, rfl⟩
    | cons f l ih =>
      rw [List.foldlM_cons] at h
      obtain ⟨r, hr, hrest⟩ := exists_of_bind h
      obtain ⟨manifest, depends, rfl⟩ := ih hrest
      unfold readManifest at hr
      split at hr
      · cases hr
      · split at hr
        · cases hr
        · obtain rfl := Except.ok.inj hr
          exact ⟨manifest, depends, rfl⟩
  obtain ⟨p, hp, h⟩ := exists_of_bind h
  obtain ⟨manifest, depends, rfl⟩ := hfold l hp
  obtain rfl := Except.ok.inj h
  simp only [Package.addDescription, Package.addKeywords, List.foldl_cons, List.foldl_nil]
  split
  · exact ⟨manifest, depends, _, _, rfl⟩
  · exact ⟨manifest, depends, _, _, rfl⟩

/-- A package begins in its directory and without files. -/
lemma path_files_readManifests {l : List Path} (h : s.readManifests dir l = .ok q) :
    q.path = dir ∧ q.files = .empty := by
  obtain ⟨manifest, depends, status, words, rfl⟩ := eq_of_readManifests h
  exact ⟨rfl, rfl⟩

/-! ## Sources -/

lemma readSource_congr (h : u.readBytes? f = v.readBytes? f) :
    (s.withTree u).readSource f = (s.withTree v).readSource f := by
  rw [readSource, readSource, readText?_withTree s h]
  rfl

/-- A source whose imports stay below its directory. -/
def ImportsBelow (s : Site) (f : Path) : Prop :=
  ∀ u, s.readSource f = .ok u → ∀ i ∈ u.imports,
    Import.classify s.discovery i = .localSource → Import.StaysBelow i

lemma localSources_congr (hname : IsName s.discovery.entryPoint) {imports : List String}
    (hstays : ∀ i ∈ imports, Import.classify s.discovery i = .localSource → Import.StaysBelow i)
    (hu : ∀ g ∈ (s.withTree u).localSources f imports, u.isFile g = v.isFile g)
    (hv : ∀ g ∈ (s.withTree v).localSources f imports, u.isFile g = v.isFile g) :
    (s.withTree u).localSources f imports = (s.withTree v).localSources f imports := by
  refine List.flatMap_congr fun i hi => ?_
  cases hkind : Import.classify (s.withTree u).discovery i with
  | package n | framework =>
    have hkind' : Import.classify (s.withTree v).discovery i = _ := hkind
    rw [hkind']
  | localSource =>
    have hkind' : Import.classify (s.withTree v).discovery i = _ := hkind
    rw [hkind']
    exact Import.resolve_congr hname (hstays i hi hkind)
      (fun g hg => hu g (mem_localSources.2 ⟨i, hi, hkind, hg⟩))
      fun g hg => hv g (mem_localSources.2 ⟨i, hi, hkind', hg⟩)

/-- Two runs of a queue read the same files if the trees agree on all files that they end with, and
no import leads away. -/
lemma eq_of_runs (hname : IsName s.discovery.entryPoint) {entry : Path}
    {queue order order' : List Path} (h : (s.withTree u).QueueRun entry p queue order q)
    (h' : (s.withTree v).QueueRun entry p queue order' q')
    (hstays : ∀ f, q.files.contains f = true → (s.withTree u).ImportsBelow f)
    (hq : u.AgreeOn v q.files) (hq' : u.AgreeOn v q'.files) : q = q' := by
  induction h generalizing order' with
  | done =>
    cases h'
    rfl
  | skip hf hrun ih => exact ih (h'.of_skip hf) hstays hq
  | @read p f queue order q x hf hx hrun ih =>
    have hread := (closed_of_run (.read hf hx hrun)).1 f List.mem_cons_self
    have hbelow := hstays f hread x hx
    rw [readSource_congr (hq f hread)] at hx
    obtain ⟨rest, -, hrun'⟩ := h'.of_read hf hx
    have hsources : (s.withTree u).localSources f x.imports =
        (s.withTree v).localSources f x.imports := localSources_congr hname hbelow
      (fun g hg => isFile_of_readBytes?
        (hq g ((closed_of_run hrun).1 g (List.mem_append_right _ hg))))
      fun g hg => isFile_of_readBytes?
        (hq' g ((closed_of_run hrun').1 g (List.mem_append_right _ hg)))
    rw [← hsources] at hrun'
    exact ih hrun' hstays hq
  | @fail p f queue order q e hf he hne hrun ih =>
    have hself := hq f ((closed_of_run (.fail hf he hne hrun)).1 f List.mem_cons_self)
    rw [readSource_congr hself] at he
    obtain ⟨rest, -, -, hrun'⟩ := h'.of_fail hf he
    exact ih hrun' hstays hq

/-- Sources are passed over, or read in a run from the entry point. -/
lemma readCode_cases (hname : IsName s.discovery.entryPoint) (hfiles : p.files = .empty)
    (h : s.readCode (dir.join s.discovery.entryPoint) p = .ok q) :
    s.discovery.skipPython = true ∧ q = p ∨ s.discovery.skipPython = false ∧
      ∃ order, s.QueueRun (dir.join s.discovery.entryPoint) p [dir.join s.discovery.entryPoint]
        order q := by
  unfold readCode at h
  split at h
  · rename_i hskip
    exact .inl ⟨hskip, (Except.ok.inj h).symm⟩
  · rename_i hskip
    exact .inr ⟨by simpa using hskip, exists_run_of_readSources hname hfiles (eq_of_mapError h)⟩

lemma readCode_unique (hname : IsName s.discovery.entryPoint) (hfiles : p.files = .empty)
    (h : (s.withTree u).readCode (dir.join s.discovery.entryPoint) p = .ok q)
    (h' : (s.withTree v).readCode (dir.join s.discovery.entryPoint) p = .ok q')
    (hstays : ∀ f, q.files.contains f = true → (s.withTree u).ImportsBelow f)
    (hq : u.AgreeOn v q.files) (hq' : u.AgreeOn v q'.files) : q = q' := by
  rcases readCode_cases (s := s.withTree u) hname hfiles h with
      ⟨hskip, rfl⟩ | ⟨hskip, order, hrun⟩ <;>
    rcases readCode_cases (s := s.withTree v) hname hfiles h' with
      ⟨hskip', rfl⟩ | ⟨hskip', order', hrun'⟩
  · rfl
  · exact absurd (hskip.symm.trans hskip') (by decide)
  · exact absurd (hskip.symm.trans hskip') (by decide)
  · exact eq_of_runs hname hrun hrun' hstays hq hq'

/-- A source adds to the models, the classes, the imports and the status of a package only. -/
lemma exists_addSource (p : Package) (u : Source.Unit) (imported : List String) :
    ∃ models classes, p.addSource u imported = { p with
      status := p.status.union u.status
      models := models
      classes := classes
      imports := p.imports.insertMany (imported.filter fun n => n ≠ p.name) } := by
  have hfold (cs : List (String × Model)) (p : Package) : ∃ models classes,
      cs.foldl Package.addClass p = { p with models := models, classes := classes } := by
    induction cs generalizing p with
    | nil => exact ⟨p.models, p.classes, rfl⟩
    | cons c cs ih =>
      obtain ⟨models, classes, h⟩ := ih (p.addClass c)
      rw [List.foldl_cons, h]
      unfold Package.addClass
      dsimp only
      split <;> exact ⟨models, classes, rfl⟩
  obtain ⟨models, classes, h⟩ := hfold u.classes { p with status := p.status.union u.status }
  exact ⟨models, classes, by rw [Package.addSource, h]⟩

lemma name_addSource (p : Package) (u : Source.Unit) (imported : List String) :
    (p.addSource u imported).name = p.name := by
  obtain ⟨models, classes, hadd⟩ := exists_addSource p u imported
  rw [hadd]

lemma path_addSource (p : Package) (u : Source.Unit) (imported : List String) :
    (p.addSource u imported).path = p.path := by
  obtain ⟨models, classes, h⟩ := exists_addSource p u imported
  rw [h]

/-- What adding a source keeps, reading all sources keeps. -/
lemma kept_declare {α : Type w} {look : Package → α}
    (hlook : ∀ p u imported, look (Package.addSource p u imported) = look p) (p : Package)
    (units : List Source.Unit) : look (s.declare p units) = look p := by
  induction units generalizing p with
  | nil => rfl
  | cons u units ih => exact (ih (p.addSource u _)).trans (hlook p u _)

/-- Reading sources keeps the path and the name of a package, and its files under their own keys. -/
lemma readCode_kept (hname : IsName s.discovery.entryPoint) (hfiles : p.files = .empty)
    (h : s.readCode (dir.join s.discovery.entryPoint) p = .ok q) :
    q.path = p.path ∧ q.name = p.name ∧ q.files.Keyed := by
  rcases readCode_cases hname hfiles h with ⟨-, rfl⟩ | ⟨-, order, hrun⟩
  · exact ⟨rfl, rfl, hfiles ▸ PathSet.keyed_empty⟩
  · rw [eq_of_run hrun]
    exact ⟨kept_declare path_addSource p _, kept_declare name_addSource p _,
      (hfiles ▸ PathSet.keyed_empty : p.files.Keyed).insertMany order⟩

/-! ## The readme -/

lemma readmePath?_eq (p : Package) (t : FileTree) :
    p.readmePath? t = (((t.list? p.path).getD []).find? Package.isReadme).map p.path.join := by
  unfold Package.readmePath?
  cases t.list? p.path <;> rfl

/-- What a directory holds under the name of a readme it holds in the other tree, too. -/
lemma mem_list?_of_readme {n : String} (hu : u.WellNamed) (hudir : u.isDirectory dir = true)
    (hvdir : v.isDirectory dir = true)
    (hfiles : ∀ f ∈ (s.withTree u).filesIn dir, u.readBytes? f = v.readBytes? f)
    (hdirs : u.isDirectory (dir.join n) = v.isDirectory (dir.join n))
    (hn : n ∈ (u.list? dir).getD []) :
    n ∈ (v.list? dir).getD [] ∧ u.readBytes? (dir.join n) = v.readBytes? (dir.join n) := by
  have hname := hu.isName_of_mem_list? hn
  rw [mem_list?_iff hvdir hname]
  cases hdir : u.isDirectory (dir.join n) with
  | true =>
    have hdir' := hdirs.symm.trans hdir
    exact ⟨hasNode_of_isDirectory hdir',
      (readBytes?_of_isDirectory hdir).trans (readBytes?_of_isDirectory hdir').symm⟩
  | false =>
    have hfile := isFile_of_hasNode ((mem_list?_iff hudir hname).1 hn) hdir
    have hsame := hfiles _ (List.mem_filter.2 ⟨List.mem_map_of_mem hn, hfile⟩)
    exact ⟨hasNode_of_isFile ((isFile_of_readBytes? hsame).symm.trans hfile), hsame⟩

/-- The readme of a package says the same in two trees that agree on the files in its directory, if
the same readmes are directories. -/
lemma readme_congr (hu : u.WellNamed) (hv : v.WellNamed) (hudir : u.isDirectory p.path = true)
    (hvdir : v.isDirectory p.path = true)
    (hufiles : ∀ f ∈ (s.withTree u).filesIn p.path, u.readBytes? f = v.readBytes? f)
    (hvfiles : ∀ f ∈ (s.withTree v).filesIn p.path, u.readBytes? f = v.readBytes? f)
    (hdirs : ∀ n, Package.isReadme n = true →
      u.isDirectory (p.path.join n) = v.isDirectory (p.path.join n)) :
    p.readme u = p.readme v := by
  have hlists : ((u.list? p.path).getD []).filter Package.isReadme =
      ((v.list? p.path).getD []).filter Package.isReadme := by
    refine ((sorted_list? u _).filter _).eq_of_mem_iff ((sorted_list? v _).filter _) fun n => ?_
    simp only [List.mem_filter, and_congr_left_iff]
    exact fun hn => ⟨fun h => (mem_list?_of_readme hu hudir hvdir hufiles (hdirs n hn) h).1,
      fun h => (mem_list?_of_readme hv hvdir hudir (fun f hf => (hvfiles f hf).symm)
        (hdirs n hn).symm h).1⟩
  have hpath : p.readmePath? u = p.readmePath? v := by
    rw [readmePath?_eq, readmePath?_eq, ← List.head?_filter, ← List.head?_filter, hlists]
  have htext : (p.readmePath? u).bind u.readText? = (p.readmePath? u).bind v.readText? := by
    rw [readmePath?_eq]
    cases hfind : ((u.list? p.path).getD []).find? Package.isReadme with
    | none => rfl
    | some n =>
      have hn := List.find?_some hfind
      exact readText?_of_readBytes? (mem_list?_of_readme hu hudir hvdir hufiles (hdirs n hn)
        (List.mem_of_find?_eq_some hfind)).2
  rw [Package.readme, Package.readme, htext, hpath]

lemma files_readAside (p : Package) : (s.readAside dir p).files = p.files := by
  simp only [readAside]
  split <;> split <;> rfl

lemma core_readAside_congr (h : p.readme u = p.readme v) :
    ((s.withTree u).readAside dir p).core = ((s.withTree v).readAside dir p).core := by
  have hreadme : p.readme (s.withTree u).files = p.readme (s.withTree v).files := h
  have hdiscovery : (s.withTree u).discovery = (s.withTree v).discovery := rfl
  simp only [readAside, hreadme, hdiscovery]
  split <;> split <;> rfl

/-! ## Scripts -/

/-- But for its complexity, what a script adds depends on its text alone. -/
lemma core_readScript (s : Site) (p : Package) (f : Path) (address : String) :
    (s.readScript p f address).core =
      if p.core.files.contains f then p.core
      else (s.files.readText? f).elim (p.core.withFiles (p.core.files.insert f)) fun text =>
        { p.core with
          files := p.core.files.insert f
          scriptModules := p.core.scriptModules.insert (Script.read address text).name
            { Script.read address text with complexity := none } } := by
  rw [readScript, Package.files_core]
  split
  · rfl
  · dsimp only
    cases s.files.readText? f with
    | none => rfl
    | some text => simp only [Option.elim_some, Package.core, OrdMap.mapValues_insert]

lemma core_readScript_congr (h : p.core = p'.core) (hsame : u.readBytes? f = v.readBytes? f)
    (address : String) :
    ((s.withTree u).readScript p f address).core =
      ((s.withTree v).readScript p' f address).core := by
  rw [core_readScript, core_readScript, h, readText?_withTree s hsame]

lemma contains_readScript (p : Package) (f : Path) (address : String) :
    (s.readScript p f address).files.contains f = true := by
  unfold readScript
  split
  · assumption
  · dsimp only
    split <;> exact PathSet.contains_insert.2 (.inl rfl)

/-- Steps that make the same of a package in two trees, but for measures, make the same in a row. -/
lemma core_foldl_congr {β : Type w} {step step' : Package → β → Package}
    (hgrows : ∀ (p : Package) b, p.Grows (step p b))
    (hgrows' : ∀ (p : Package) b, p.Grows (step' p b))
    (hstep : ∀ p p' b, Package.core p = p'.core → u.AgreeOn v (step p b).files →
      u.AgreeOn v (step' p' b).files → (step p b).core = (step' p' b).core)
    (l : List β) (h : p.core = p'.core) (hu : u.AgreeOn v (l.foldl step p).files)
    (hv : u.AgreeOn v (l.foldl step' p').files) :
    (l.foldl step p).core = (l.foldl step' p').core := by
  induction l generalizing p p' with
  | nil => exact h
  | cons b l ih =>
    exact ih (hstep p p' b h (hu.mono (Package.Grows.foldl hgrows l _).files)
      (hv.mono (Package.Grows.foldl hgrows' l _).files)) hu hv

lemma fileName?_of_isScript (h : isScript f = true) : f.fileName?.isSome = true := by
  unfold isScript extension? at h
  cases hname : f.fileName? <;> simp_all

lemma readPattern_eq (s : Site) (parent : Path) (p : Package) (pattern : String) :
    s.readPattern parent p pattern =
      (PathGlob.kept isScript s.files (parent.join (trimSlashes pattern)).text).foldl
        (fun p f => s.readScript p f (addressOf parent f)) p := rfl

lemma grows_readPattern (p : Package) (pattern : String) :
    p.Grows (s.readPattern parent p pattern) := by
  rw [readPattern_eq]
  exact Package.Grows.foldl (fun p f => grows_readScript p f (addressOf parent f)) _ p

/-- The scripts that match a pattern are read. -/
lemma contains_of_mem_kept {pattern : String}
    (hf : f ∈ PathGlob.kept isScript s.files (parent.join (trimSlashes pattern)).text) :
    (s.readPattern parent p pattern).files.contains f = true := by
  rw [readPattern_eq]
  exact Package.Grows.forall_foldl (P := fun p f => p.files.contains f = true)
    (fun p f => grows_readScript p f (addressOf parent f))
    (fun p f => contains_readScript p f (addressOf parent f))
    (fun _ _ f hpq hf => hpq.files f hf) _ p f hf

/-- What stands in one of two trees that agree on it stands in the other one. -/
lemma hasNode_congr (hnode : u.hasNode f = true)
    (hdir : u.isDirectory f = v.isDirectory f) (hsame : u.readBytes? f = v.readBytes? f) :
    v.hasNode f = true ∧ u.isDirectory f = v.isDirectory f := by
  refine ⟨?_, hdir⟩
  cases hudir : u.isDirectory f with
  | true => exact hasNode_of_isDirectory (hdir.symm.trans hudir)
  | false =>
    exact hasNode_of_isFile
      ((isFile_of_readBytes? hsame).symm.trans (isFile_of_hasNode hnode hudir))

lemma core_readPattern_congr (hu : u.WellNamed) (hv : v.WellNamed)
    (hdirs : ∀ f, isScript f = true → u.isDirectory f = v.isDirectory f) (h : p.core = p'.core)
    {pattern : String}
    (hp : u.AgreeOn v ((s.withTree u).readPattern parent p pattern).files)
    (hp' : u.AgreeOn v ((s.withTree v).readPattern parent p' pattern).files) :
    ((s.withTree u).readPattern parent p pattern).core =
      ((s.withTree v).readPattern parent p' pattern).core := by
  have hscript {t : FileTree} {f : Path} {pattern : String}
      (hf : f ∈ PathGlob.kept isScript t pattern) : isScript f = true := (List.mem_filter.1 hf).2
  have hname (f : Path) (hf : isScript f = true) := fileName?_of_isScript hf
  have hkept :
      PathGlob.kept isScript (s.withTree u).files (parent.join (trimSlashes pattern)).text =
        PathGlob.kept isScript (s.withTree v).files (parent.join (trimSlashes pattern)).text := by
    refine PathGlob.kept_congr hu hv hname (fun f hf => ?_) fun f hf => ?_
    · exact hasNode_congr (PathGlob.hasNode_of_mem_kept hu hname hf) (hdirs f (hscript hf))
        (hp f (contains_of_mem_kept hf))
    · exact hasNode_congr (PathGlob.hasNode_of_mem_kept hv hname hf)
        (hdirs f (hscript hf)).symm (hp' f (contains_of_mem_kept hf)).symm
  rw [readPattern_eq] at hp hp' ⊢
  rw [readPattern_eq]
  rw [hkept] at hp ⊢
  refine core_foldl_congr ?_ ?_ ?_ _ h hp hp'
  · exact fun p f => grows_readScript p f _
  · exact fun p f => grows_readScript p f _
  · exact fun p p' f h hp _ => core_readScript_congr h (hp f (contains_readScript p f _)) _

lemma grows_readAssets (p : Package) : p.Grows (s.readAssets p parent) :=
  Package.Grows.foldl grows_readPattern p.assetPatterns p

lemma core_readAssets_congr (hu : u.WellNamed) (hv : v.WellNamed)
    (hdirs : ∀ f, isScript f = true → u.isDirectory f = v.isDirectory f) (h : p.core = p'.core)
    (hp : u.AgreeOn v ((s.withTree u).readAssets p parent).files)
    (hp' : u.AgreeOn v ((s.withTree v).readAssets p' parent).files) :
    ((s.withTree u).readAssets p parent).core = ((s.withTree v).readAssets p' parent).core := by
  have hmanifest : p.manifest = p'.manifest := by simpa using congrArg Package.manifest h
  have hpatterns : p'.assetPatterns = p.assetPatterns := by
    rw [Package.assetPatterns, Package.assetPatterns, hmanifest]
  rw [readAssets] at hp hp' ⊢
  rw [hpatterns] at hp'
  rw [readAssets, hpatterns]
  exact core_foldl_congr grows_readPattern grows_readPattern
    (fun p p' pattern h => core_readPattern_congr hu hv hdirs h) _ h hp hp'

lemma grows_readScripts (p : Package) : p.Grows (s.readScripts dir p) := by
  unfold readScripts
  split
  · exact .refl p
  · exact grows_readAssets p

lemma core_readScripts_congr (hu : u.WellNamed) (hv : v.WellNamed)
    (hdirs : ∀ f, isScript f = true → u.isDirectory f = v.isDirectory f) (h : p.core = p'.core)
    (hp : u.AgreeOn v ((s.withTree u).readScripts dir p).files)
    (hp' : u.AgreeOn v ((s.withTree v).readScripts dir p').files) :
    ((s.withTree u).readScripts dir p).core = ((s.withTree v).readScripts dir p').core := by
  have hdiscovery (t : FileTree) : (s.withTree t).discovery = s.discovery := rfl
  simp only [readScripts, hdiscovery] at hp hp' ⊢
  split
  · exact h
  · rename_i hskip
    rw [if_neg hskip] at hp hp'
    exact core_readAssets_congr hu hv hdirs h hp hp'

/-! ## Data files -/

lemma dataFile_of_readBytes? (h : u.readBytes? f = v.readBytes? f) (package : String) :
    (s.withTree u).dataFile package f = (s.withTree v).dataFile package f := by
  have hfile : (s.withTree u).files.isFile f = (s.withTree v).files.isFile f :=
    isFile_of_readBytes? h
  rw [dataFile, dataFile, hfile, readText?_withTree s h]

lemma core_readNamedScript_congr (h : p.core = p'.core) {n : String}
    (hp : u.AgreeOn v ((s.withTree u).readNamedScript parent p n).files)
    (hp' : u.AgreeOn v ((s.withTree v).readNamedScript parent p' n).files) :
    ((s.withTree u).readNamedScript parent p n).core =
      ((s.withTree v).readNamedScript parent p' n).core := by
  have hu : (s.withTree u).ScriptRead parent ((s.withTree u).readNamedScript parent p n) n :=
    scriptRead_readNamedScript p n
  have hv : (s.withTree v).ScriptRead parent ((s.withTree v).readNamedScript parent p' n) n :=
    scriptRead_readNamedScript p' n
  have hread (t : FileTree) (p : Package) : (s.withTree t).readNamedScript parent p n =
      if t.isFile (namedScript parent n) && isScript (namedScript parent n) then
        (s.withTree t).readScript p (namedScript parent n)
          (String.ofList (n.toList.dropWhile (· == '/')))
      else p := rfl
  cases hscript : u.isFile (namedScript parent n) && isScript (namedScript parent n) <;>
    cases hscript' : v.isFile (namedScript parent n) && isScript (namedScript parent n)
  · rw [hread, hread, hscript, hscript']
    exact h
  · rw [← isFile_of_readBytes? (hp' _ (hv hscript')), hscript] at hscript'
    cases hscript'
  · rw [isFile_of_readBytes? (hp _ (hu hscript)), hscript'] at hscript
    cases hscript
  · have hsame := hp _ (hu hscript)
    rw [hread, hread, hscript, hscript', if_pos rfl, if_pos rfl]
    exact core_readScript_congr h hsame _

lemma core_addMarkup_congr (h : p.core = p'.core) (x : Markup.Unit)
    (hp : u.AgreeOn v ((s.withTree u).addMarkup parent p x).files)
    (hp' : u.AgreeOn v ((s.withTree v).addMarkup parent p' x).files) :
    ((s.withTree u).addMarkup parent p x).core = ((s.withTree v).addMarkup parent p' x).core := by
  have hmerge (p : Package) (r : Record) : (p.mergeRecord r).core = p.core.mergeRecord r := by
    unfold Package.mergeRecord
    split <;> rfl
  have hrecords :
      (x.records.foldl Package.mergeRecord { p with refers := p.refers.union x.refers }).core =
        (x.records.foldl Package.mergeRecord
          { p' with refers := p'.refers.union x.refers }).core := by
    rw [← List.foldl_hom Package.core (fun p r => (hmerge p r).symm),
      ← List.foldl_hom Package.core (fun p r => (hmerge p r).symm)]
    exact congrArg (fun r : Package => x.records.foldl Package.mergeRecord
      { r with refers := r.refers.union x.refers }) h
  exact core_foldl_congr grows_readNamedScript grows_readNamedScript
    (fun p p' n h => core_readNamedScript_congr h) x.scripts hrecords hp hp'

lemma core_readDataFile_congr (h : p.core = p'.core) (hf : u.readBytes? f = v.readBytes? f)
    (hp : (s.withTree u).readDataFile parent p f = .ok q)
    (hp' : (s.withTree v).readDataFile parent p' f = .ok q')
    (hq : u.AgreeOn v q.files) (hq' : u.AgreeOn v q'.files) : q.core = q'.core := by
  have hname : p.name = p'.name := by simpa using congrArg Package.name h
  rw [readDataFile_eq] at hp hp'
  rw [← hname, ← dataFile_of_readBytes? hf] at hp'
  cases hx : (s.withTree u).dataFile p.name f with
  | passed =>
    rw [hx] at hp hp'
    obtain rfl := Except.ok.inj hp
    obtain rfl := Except.ok.inj hp'
    exact h
  | missing =>
    rw [hx] at hp hp'
    obtain rfl := Except.ok.inj hp
    obtain rfl := Except.ok.inj hp'
    exact congrArg (fun r : Package => { r with status := r.status.insert Status.missingFile }) h
  | failed e =>
    rw [hx] at hp
    cases hp
  | table rows =>
    rw [hx] at hp hp'
    obtain rfl := Except.ok.inj hp
    obtain rfl := Except.ok.inj hp'
    exact congrArg (fun r : Package =>
      { r with files := r.files.insert f, dataCount := r.dataCount + rows }) h
  | markup x =>
    rw [hx] at hp hp'
    obtain rfl := Except.ok.inj hp
    obtain rfl := Except.ok.inj hp'
    exact core_addMarkup_congr
      (congrArg (fun r : Package => { r with files := r.files.insert f }) h) x hq hq'

lemma core_readDataFiles_congr {l : List Path} (h : p.core = p'.core)
    (hl : ∀ f ∈ l, u.readBytes? f = v.readBytes? f)
    (hp : (s.withTree u).readDataFiles parent p l = .ok q)
    (hp' : (s.withTree v).readDataFiles parent p' l = .ok q')
    (hq : u.AgreeOn v q.files) (hq' : u.AgreeOn v q'.files) : q.core = q'.core := by
  induction l generalizing p p' with
  | nil =>
    obtain rfl := Except.ok.inj hp
    obtain rfl := Except.ok.inj hp'
    exact h
  | cons f l ih =>
    rw [readDataFiles, List.foldlM_cons] at hp hp'
    obtain ⟨r, hr, hrest⟩ := exists_of_bind hp
    obtain ⟨r', hr', hrest'⟩ := exists_of_bind hp'
    obtain ⟨hf, hl⟩ := List.forall_mem_cons.1 hl
    exact ih (core_readDataFile_congr h hf hr hr' (hq.mono (grows_readDataFiles hrest).files)
      (hq'.mono (grows_readDataFiles hrest').files)) hl hrest hrest'

end Site

end AddonAtlas
