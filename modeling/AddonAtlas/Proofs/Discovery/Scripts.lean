import AddonAtlas.Proofs.Discovery.Classes
import AddonAtlas.Proofs.Script.ModulePaths

/-!
The scripts of a package.

Scripts are those that match an asset pattern and those that markup names. Each file is read once,
at the first of its addresses, unless it has been read as a source, and its module is filed by the
name that the address stands for. Of scripts that share a name the last one stays.
-/

namespace AddonAtlas

open AddonAtlas.Path

/-- A script file and an address of it. -/
structure ScriptAt where
  file : Path
  address : String

namespace Site

/-- Read scripts, one after the other. -/
def readScriptList (s : Site) (p : Package) (l : List ScriptAt) : Package :=
  l.foldl (fun p e => s.readScript p e.file e.address) p

/-- The scripts that match the asset patterns of a package. -/
def assetScripts (s : Site) (parent : Path) (p : Package) : List ScriptAt :=
  p.assetPatterns.flatMap fun pattern =>
    (PathGlob.kept isScript s.files (parent.join (trimSlashes pattern)).text).map fun f =>
      ⟨f, addressOf parent f⟩

/-- A script as markup names it. -/
def scriptAt (parent : Path) (source : String) : ScriptAt :=
  ⟨namedScript parent source, String.ofList (source.toList.dropWhile (· == '/'))⟩

/-- The scripts that markup names. -/
def markupScripts (s : Site) (parent : Path) (u : Markup.Unit) : List ScriptAt :=
  (u.scripts.map (scriptAt parent)).filter fun e => s.files.isFile e.file && isScript e.file

/-- The scripts that the data files of a package of some name call for. -/
def dataScripts (s : Site) (parent : Path) (package : String) (files : List Path) : List ScriptAt :=
  files.flatMap fun f => match s.dataFile package f with
    | .markup u => s.markupScripts parent u
    | _ => []

/-- All scripts that a package reaches, in the order in which it does. -/
def scriptsOf (s : Site) (dir : Path) (p : Package) : List ScriptAt :=
  (if s.discovery.skipAssets then [] else s.assetScripts (dir.parent?.getD dir) p) ++
    s.dataScripts (dir.parent?.getD dir) p.name (s.dataPaths dir p)

/-- The scripts in a list that are read and can be, if some files have been read before. -/
def analysed (s : Site) : PathSet → List ScriptAt → List ScriptAt
  | _, [] => []
  | files, e :: l =>
    if files.contains e.file then analysed s files l
    else if (s.files.readText? e.file).isSome then e :: analysed s (files.insert e.file) l
    else analysed s (files.insert e.file) l

/-- What a script says. -/
def module? (s : Site) (e : ScriptAt) : Option ScriptModule :=
  (s.files.readText? e.file).map fun text =>
    { Script.read e.address text with complexity := s.scriptComplexity? e.file }

def fileScript (s : Site) (modules : NameMap ScriptModule) (e : ScriptAt) : NameMap ScriptModule :=
  (s.module? e).elim modules fun m => modules.insert m.name m

variable {s : Site} {dir parent f : Path} {p q a b c : Package} {files : PathSet} {e : ScriptAt}
  {l : List ScriptAt}

/-! ## Reading a list -/

lemma name_of_module? {m : ScriptModule} (h : s.module? e = some m) :
    m.name = Script.modulePath e.address := by
  obtain ⟨text, -, rfl⟩ := Option.map_eq_some_iff.1 h
  unfold Script.read
  dsimp only
  split
  · rfl
  · split
    · rfl
    · split <;> rfl

lemma readScript_eq (p : Package) (e : ScriptAt) : s.readScript p e.file e.address =
    if p.files.contains e.file then p else
      { p with
        files := p.files.insert e.file
        scriptModules := s.fileScript p.scriptModules e } := by
  unfold readScript fileScript module?
  split
  · rfl
  · cases s.files.readText? e.file <;> rfl

lemma scriptModules_readScriptList (p : Package) (l : List ScriptAt) :
    (s.readScriptList p l).scriptModules =
      (s.analysed p.files l).foldl s.fileScript p.scriptModules := by
  induction l generalizing p with
  | nil => rfl
  | cons e l ih =>
    rw [readScriptList, List.foldl_cons, readScript_eq, analysed]
    split
    · exact ih p
    · refine (ih _).trans ?_
      split
      · rfl
      · rename_i hnone
        have hfile : s.fileScript p.scriptModules e = p.scriptModules := by
          simp [fileScript, module?, Option.not_isSome_iff_eq_none.1 hnone]
        dsimp only
        rw [hfile]

lemma mem_analysed (h : e ∈ s.analysed files l) :
    e ∈ l ∧ files.contains e.file = false ∧ (s.files.readText? e.file).isSome = true := by
  induction l generalizing files with
  | nil => cases h
  | cons x l ih =>
    have hrest {files' : PathSet}
        (hinsert : ∀ f, files.contains f = true → files'.contains f = true)
        (h : e ∈ s.analysed files' l) :
        e ∈ x :: l ∧ files.contains e.file = false ∧ (s.files.readText? e.file).isSome = true := by
      obtain ⟨hmem, hnew, hread⟩ := ih h
      refine ⟨List.mem_cons_of_mem x hmem, ?_, hread⟩
      rw [← Bool.not_eq_true] at hnew ⊢
      exact fun hold => hnew (hinsert _ hold)
    have hinsert (f : Path) (hf : files.contains f = true) :
        (files.insert x.file).contains f = true :=
      PathSet.contains_insert.2 (.inr hf)
    rw [analysed] at h
    split at h
    · exact hrest (fun _ => id) h
    · rename_i hnew
      split at h
      · rename_i hread
        rcases List.mem_cons.1 h with rfl | h
        · exact ⟨List.mem_cons_self, by simpa using hnew, hread⟩
        · exact hrest hinsert h
      · exact hrest hinsert h

lemma nodup_analysed (files : PathSet) (l : List ScriptAt) :
    ((s.analysed files l).map fun e => e.file.key).Nodup := by
  induction l generalizing files with
  | nil => exact List.nodup_nil
  | cons x l ih =>
    rw [analysed]
    split
    · exact ih files
    · split
      · refine List.nodup_cons.2 ⟨fun hmem => ?_, ih _⟩
        obtain ⟨e, he, hkey⟩ := List.mem_map.1 hmem
        have hnew := (mem_analysed he).2.1
        rw [PathSet.contains_insert.2 (.inl hkey)] at hnew
        cases hnew
      · exact ih _

/-- A script that can be read is read, or has been, if no spelling of it cannot be read. -/
lemma analysed_complete (h : e ∈ l)
    (hread : ∀ x ∈ l, x.file.key = e.file.key → (s.files.readText? x.file).isSome = true) :
    files.contains e.file = true ∨
      e.file.key ∈ (s.analysed files l).map fun e => e.file.key := by
  induction l generalizing files with
  | nil => cases h
  | cons x l ih =>
    have hrest : ∀ y ∈ l, y.file.key = e.file.key → (s.files.readText? y.file).isSome = true :=
      fun y hy => hread y (List.mem_cons_of_mem x hy)
    rw [analysed]
    split
    · rename_i hold
      rcases List.mem_cons.1 h with rfl | h
      · exact .inl hold
      · exact ih h hrest
    · by_cases hkey : x.file.key = e.file.key
      · rw [if_pos (hread x List.mem_cons_self hkey), List.map_cons, hkey]
        exact .inr List.mem_cons_self
      · have hmem : e ∈ l := (List.mem_cons.1 h).resolve_left fun hsame => hkey (hsame ▸ rfl)
        have hold : (files.insert x.file).contains e.file = true ∨ _ := ih hmem hrest
        rw [PathSet.contains_insert, or_assoc] at hold
        have hold := hold.resolve_left fun hsame => hkey hsame.symm
        split
        · exact hold.imp_right (List.mem_cons_of_mem _)
        · exact hold

/-- Under a name stands what the last script of this name says. -/
lemma get?_foldl_fileScript (h : ∀ e ∈ l, (s.files.readText? e.file).isSome = true) (n : String) :
    (l.foldl s.fileScript .empty).get? n =
      ((l.filter fun e => Script.modulePath e.address = n).getLast?).bind s.module? := by
  induction l using List.reverseRecOn with
  | nil => rfl
  | append_singleton l e ih =>
    obtain ⟨m, hm⟩ : ∃ m, s.module? e = some m := by
      obtain ⟨text, htext⟩ := Option.isSome_iff_exists.1 (h e (by simp))
      exact ⟨_, congrArg (Option.map _) htext⟩
    rw [List.foldl_concat, fileScript, hm, Option.elim_some, OrdMap.get?_insert, name_of_module? hm,
      List.filter_append, ih fun x hx => h x (List.mem_append_left _ hx)]
    by_cases hn : Script.modulePath e.address = n
    · simp [hn, hm]
    · have hne : ¬ n = Script.modulePath e.address := fun h => hn h.symm
      simp [hn, hne]

/-! ## Other steps -/

/-- Two packages have the same script modules and the same files, as far as these are scripts. -/
structure SameScripts (p q : Package) : Prop where
  modules : q.scriptModules = p.scriptModules
  files : ∀ f, isScript f = true → q.files.contains f = p.files.contains f

lemma SameScripts.trans {o : Package} (h : SameScripts o p) (h' : SameScripts p q) :
    SameScripts o q :=
  ⟨h'.modules.trans h.modules, fun f hf => (h'.files f hf).trans (h.files f hf)⟩

lemma SameScripts.readScript (h : SameScripts p q) (he : isScript e.file = true) :
    SameScripts (s.readScript p e.file e.address) (s.readScript q e.file e.address) := by
  rw [readScript_eq, readScript_eq, h.files _ he]
  split
  · exact h
  · refine ⟨congrArg (fun m => s.fileScript m e) h.modules, fun f hf => ?_⟩
    rw [Bool.eq_iff_iff, PathSet.contains_insert, PathSet.contains_insert, h.files f hf]

lemma SameScripts.readScriptList (h : SameScripts p q) (hl : ∀ e ∈ l, isScript e.file = true) :
    SameScripts (s.readScriptList p l) (s.readScriptList q l) := by
  induction l generalizing p q with
  | nil => exact h
  | cons e l ih =>
    obtain ⟨he, hl⟩ := List.forall_mem_cons.1 hl
    exact ih (h.readScript he) hl

/-- A file of another kind is none of the scripts. -/
lemma sameScripts_insert (h : f.extension? ≠ some "js") :
    SameScripts p { p with files := p.files.insert f } := by
  refine ⟨rfl, fun g hg => ?_⟩
  have hkey : g.key ≠ f.key := fun hkey => h (by
    have hextension : g.extension? = f.extension? := by
      simp only [extension?, fileName?, components_of_key hkey]
    rw [← hextension]
    simpa [isScript] using hg)
  rw [Bool.eq_iff_iff, PathSet.contains_insert, or_iff_right hkey]

lemma isScript_of_mem_markupScripts {u : Markup.Unit} (h : e ∈ s.markupScripts parent u) :
    isScript e.file = true := (Bool.and_eq_true_iff.1 (List.mem_filter.1 h).2).2

lemma isScript_of_mem_dataScripts {package : String} {files : List Path}
    (h : e ∈ s.dataScripts parent package files) : isScript e.file = true := by
  obtain ⟨f, -, h⟩ := List.mem_flatMap.1 h
  split at h
  · exact isScript_of_mem_markupScripts h
  · cases h

/-- The scripts that markup names are read one after the other. -/
lemma sameScripts_addMarkup (p : Package) (u : Markup.Unit) :
    SameScripts (s.readScriptList p (s.markupScripts parent u)) (s.addMarkup parent p u) := by
  have hnamed : s.readNamedScript parent = fun p n =>
      if s.files.isFile (scriptAt parent n).file && isScript (scriptAt parent n).file then
        s.readScript p (scriptAt parent n).file (scriptAt parent n).address else p := by
    funext p n
    rw [readNamedScript, scriptAt, namedScript]
  have hlist (p : Package) : u.scripts.foldl (s.readNamedScript parent) p =
      s.readScriptList p (s.markupScripts parent u) := by
    rw [readScriptList, markupScripts, List.foldl_filter, List.foldl_map, hnamed]
  have hmerge (rs : List Record) (p : Package) :
      SameScripts p (rs.foldl Package.mergeRecord p) := by
    induction rs generalizing p with
    | nil => exact ⟨rfl, fun f _ => rfl⟩
    | cons r rs ih =>
      refine SameScripts.trans ?_ (ih (p.mergeRecord r))
      unfold Package.mergeRecord
      split <;> exact ⟨rfl, fun f _ => rfl⟩
  have hrefers : SameScripts p { p with refers := p.refers.union u.refers } := ⟨rfl, fun f _ => rfl⟩
  unfold addMarkup
  dsimp only
  rw [hlist]
  exact (hrefers.trans (hmerge u.records _)).readScriptList fun e => isScript_of_mem_markupScripts

lemma extension?_of_dataFile {package : String} (h : s.dataFile package f ≠ .passed) :
    f.extension? ≠ some "js" := by
  intro hjs
  apply h
  simp [dataFile, hjs]

/-- A data file reads the scripts that it calls for. -/
lemma sameScripts_readDataFile (h : s.readDataFile parent p f = .ok q) :
    SameScripts (s.readScriptList p (s.dataScripts parent p.name [f])) q := by
  rw [readDataFile_eq] at h
  rw [dataScripts, List.flatMap_singleton]
  have hkind : s.dataFile p.name f ≠ .passed → f.extension? ≠ some "js" := extension?_of_dataFile
  cases hx : s.dataFile p.name f with
  | failed e =>
    rw [hx] at h
    cases h
  | passed | missing =>
    rw [hx] at h
    obtain rfl := Except.ok.inj h
    exact ⟨rfl, fun g _ => rfl⟩
  | table rows =>
    rw [hx] at h
    obtain rfl := Except.ok.inj h
    have hinsert := sameScripts_insert (p := p) (hkind (by simp [hx]))
    exact ⟨hinsert.modules, hinsert.files⟩
  | markup u =>
    rw [hx] at h
    obtain rfl := Except.ok.inj h
    have hinsert := sameScripts_insert (p := p) (hkind (by simp [hx]))
    exact (hinsert.readScriptList fun e => isScript_of_mem_markupScripts).trans
      (sameScripts_addMarkup _ u)

lemma sameScripts_readDataFiles {files : List Path} (h : s.readDataFiles parent p files = .ok q) :
    SameScripts (s.readScriptList p (s.dataScripts parent p.name files)) q := by
  induction files generalizing p with
  | nil =>
    obtain rfl := Except.ok.inj h
    exact ⟨rfl, fun f _ => rfl⟩
  | cons f files ih =>
    rw [readDataFiles, List.foldlM_cons] at h
    obtain ⟨r, hr, hrest⟩ := exists_of_bind h
    have hhere := sameScripts_readDataFile hr
    have hlater := ih hrest
    rw [(grows_readDataFile hr).name] at hlater
    have hlist : s.readScriptList p (s.dataScripts parent p.name (f :: files)) =
        s.readScriptList (s.readScriptList p (s.dataScripts parent p.name [f]))
          (s.dataScripts parent p.name files) := by
      rw [readScriptList, readScriptList, readScriptList, ← List.foldl_append]
      simp [dataScripts]
    rw [hlist]
    exact (hhere.readScriptList fun e => isScript_of_mem_dataScripts).trans hlater

lemma readScripts_eq (dir : Path) (p : Package) : s.readScripts dir p = s.readScriptList p
    (if s.discovery.skipAssets then [] else s.assetScripts (dir.parent?.getD dir) p) := by
  unfold readScripts
  split
  · rfl
  · rw [readScriptList, assetScripts, List.foldl_flatMap, readAssets]
    refine congrArg (fun step => p.assetPatterns.foldl step p) ?_
    funext q pattern
    rw [readPattern_eq, List.foldl_map]

/-! ## Packages -/

lemma scriptModules_addSource (p : Package) (u : Source.Unit) (imported : List String) :
    (p.addSource u imported).scriptModules = p.scriptModules := by
  obtain ⟨models, classes, h⟩ := exists_addSource p u imported
  rw [h]

/-- Sources bring no scripts. -/
lemma scriptModules_readQueue {entry : Path} {n : Nat} {queue : List Path}
    (h : s.readQueue entry n p queue = .ok q) : q.scriptModules = p.scriptModules := by
  fun_induction readQueue s entry n p queue with
  | case1 => cases h
  | case2 n p queue hrest =>
    obtain rfl := Except.ok.inj h
    rfl
  | case3 n p queue file rest hrest p' u hu ih => exact (ih h).trans (scriptModules_addSource _ _ _)
  | case4 => cases h
  | case5 n p queue file rest hrest p' e he hkey ih => exact ih h

lemma scriptModules_readCode {entry : Path} (h : s.readCode entry p = .ok q) :
    q.scriptModules = p.scriptModules := by
  rw [readCode] at h
  split at h
  · obtain rfl := Except.ok.inj h
    rfl
  · exact scriptModules_readQueue (eq_of_mapError h)

/-- After its sources a package reads the scripts that it reaches. -/
lemma Stages.sameScripts (h : s.Stages dir a b c p) :
    SameScripts (s.readScriptList b (s.scriptsOf dir p)) p := by
  have haside : SameScripts b (s.readAside dir b) := by
    refine ⟨?_, fun f _ => by rw [files_readAside]⟩
    simp only [readAside, Package.addKeywords]
    split <;> split <;> rfl
  have hmanifest : (s.readAside dir b).manifest = p.manifest := by
    rw [manifest_readAside, manifest_readCode h.readCode, h.manifest]
  have hassets : s.assetScripts (dir.parent?.getD dir) (s.readAside dir b) =
      s.assetScripts (dir.parent?.getD dir) p := by
    rw [assetScripts, Package.assetPatterns, hmanifest]
    rfl
  have hpackage : (s.readScripts dir (s.readAside dir b)).name = p.name := by
    rw [← (grows_readDataFiles h.readDataFiles).name, h.digest]
    rfl
  have hdata := sameScripts_readDataFiles h.readDataFiles
  rw [hpackage] at hdata
  have hlast : SameScripts c p := by
    rw [h.digest]
    exact ⟨rfl, fun f _ => rfl⟩
  have hlist : ∀ e ∈ (if s.discovery.skipAssets then [] else
      s.assetScripts (dir.parent?.getD dir) p : List ScriptAt), isScript e.file = true := by
    intro e he
    split at he
    · cases he
    · obtain ⟨pattern, -, he⟩ := List.mem_flatMap.1 he
      obtain ⟨f, hf, rfl⟩ := List.mem_map.1 he
      exact (List.mem_filter.1 hf).2
  have hscripts := haside.readScriptList (s := s) hlist
  rw [← hassets, ← readScripts_eq, hassets] at hscripts
  rw [scriptsOf, readScriptList, List.foldl_append]
  exact ((hscripts.readScriptList fun e => isScript_of_mem_dataScripts).trans hdata).trans hlast

/-- What stands under one spelling of a file that can be read can be read under each one. -/
lemma readText?_of_hasNode {x : Path} (hkey : x.key = f.key) (hnode : s.files.hasNode x = true)
    (h : (s.files.readText? f).isSome = true) : (s.files.readText? x).isSome = true := by
  obtain ⟨text, htext⟩ := Option.isSome_iff_exists.1 h
  have hfile := FileTree.isFile_of_readText? htext
  obtain ⟨bytes, hbytes⟩ := FileTree.isFile_iff.1 hfile
  obtain ⟨here, hplace, hdir, -⟩ := FileTree.readBytes?_eq_some_iff.1 hbytes
  obtain ⟨there, hthere, -⟩ := FileTree.hasNode_iff.1 hnode
  obtain rfl : there = here := by
    have hwalk := FileTree.walk_of_place? hthere
    rw [FileTree.route_congr hkey, FileTree.walk_of_place? hplace] at hwalk
    exact (Option.some.inj hwalk).symm
  have htrails : x.trails = false := by
    rw [FileTree.place?_eq _ (FileTree.text_ne_of_place? hthere),
      Option.filter_eq_some_iff] at hthere
    simpa [hdir] using hthere.2
  rw [FileTree.readText?_congr hkey (htrails.trans (FileTree.trails_of_isFile hfile).symm)]
  exact h

/-- All scripts that a package reaches stand in the tree. -/
lemma hasNode_of_mem_scriptsOf (hwell : s.files.WellNamed) (h : e ∈ s.scriptsOf dir p) :
    s.files.hasNode e.file = true := by
  rcases List.mem_append.1 h with h | h
  · split at h
    · cases h
    · obtain ⟨pattern, -, he⟩ := List.mem_flatMap.1 h
      obtain ⟨f, hf, rfl⟩ := List.mem_map.1 he
      exact PathGlob.hasNode_of_mem_kept hwell (fun f => fileName?_of_isScript) hf
  · obtain ⟨f, -, h⟩ := List.mem_flatMap.1 h
    split at h
    · exact FileTree.hasNode_of_isFile (Bool.and_eq_true_iff.1 (List.mem_filter.1 h).2).1
    · cases h

/-- A package has a module for each name of some scripts: what the last one of this name says. -/
structure FilesScripts (s : Site) (p : Package) (log : List ScriptAt) : Prop where
  once : (log.map fun e => e.file.key).Nodup
  modules : ∀ n, p.scriptModules.get? n =
    ((log.filter fun e => Script.modulePath e.address = n).getLast?).bind s.module?
  filed : ∀ e ∈ log, ∃ m, p.scriptModules.get? (Script.modulePath e.address) = some m ∧
    m.name = Script.modulePath e.address

lemma filesScripts_of_stages (h : s.Stages dir a b c p) :
    s.FilesScripts p (s.analysed b.files (s.scriptsOf dir p)) := by
  have hbefore : b.scriptModules = .empty := by
    rw [scriptModules_readCode h.readCode]
    obtain ⟨manifest, depends, status, words, rfl⟩ := eq_of_readManifests h.readManifests
    rfl
  have hread : ∀ e ∈ s.analysed b.files (s.scriptsOf dir p),
      (s.files.readText? e.file).isSome = true := fun e he => (mem_analysed he).2.2
  have hmodules (n : String) := get?_foldl_fileScript hread n
  rw [← hbefore, ← scriptModules_readScriptList, ← h.sameScripts.modules] at hmodules
  refine ⟨nodup_analysed b.files _, hmodules, fun e he => ?_⟩
  rw [hmodules]
  obtain ⟨x, hx⟩ : ∃ x, ((s.analysed b.files (s.scriptsOf dir p)).filter fun x =>
      Script.modulePath x.address = Script.modulePath e.address).getLast? = some x := by
    rw [← Option.ne_none_iff_exists', Ne, List.getLast?_eq_none_iff]
    exact List.ne_nil_of_mem (List.mem_filter.2 ⟨he, by simp⟩)
  obtain ⟨hmem, hsame⟩ := List.mem_filter.1 (List.mem_of_getLast? hx)
  obtain ⟨text, htext⟩ := Option.isSome_iff_exists.1 (hread x hmem)
  have hmodule : s.module? x = some _ := congrArg (Option.map _) htext
  rw [hx, Option.bind_some]
  exact ⟨_, hmodule, (name_of_module? hmodule).trans (by simpa using hsame)⟩

/-- **Scripts.** A package reads each script that it reaches once, if it can be read and has not
been read as a source, and files it by its name. Two of them share an entry just if one name stands
for both of their addresses, and then the one that is read last stays. In one static tree that is
so just if their places have the same stem. -/
theorem assemble_scripts (s : Site) (dir : Path) (p : Package) (hwell : s.files.WellNamed)
    (h : s.assemble dir = .ok (.package p)) :
    ∃ described coded, s.readManifests dir (s.manifestsIn dir) = .ok described ∧
      s.readCode (dir.join s.discovery.entryPoint) described = .ok coded ∧
      s.FilesScripts p (s.analysed coded.files (s.scriptsOf dir p)) ∧
      (∀ e ∈ s.scriptsOf dir p, (s.files.readText? e.file).isSome = true →
        coded.files.contains e.file = true ∨
          e.file.key ∈ (s.analysed coded.files (s.scriptsOf dir p)).map fun e => e.file.key) ∧
      ∀ e ∈ s.analysed coded.files (s.scriptsOf dir p),
        ∀ e' ∈ s.analysed coded.files (s.scriptsOf dir p),
          Script.IsAddress e.address → Script.IsAddress e'.address →
          (Script.modulePath e.address = Script.modulePath e'.address ↔
            ∃ n, Script.Names n e.address ∧ Script.Names n e'.address) ∧
          ∀ package t x y, Script.address? e.address.toList = some (package, t, x) →
            Script.address? e'.address.toList = some (package, t, y) →
            (Script.modulePath e.address = Script.modulePath e'.address ↔
              ∃ stem, Script.Spells stem x ∧ Script.Spells stem y) := by
  obtain ⟨a, b, c, hstages⟩ := exists_stages h
  refine ⟨a, b, hstages.readManifests, hstages.readCode, filesScripts_of_stages hstages,
    fun e he hread => ?_, fun e _ e' _ ha ha' => ⟨?_, fun package t x y hx hy => ?_⟩⟩
  · exact analysed_complete he fun x hx hkey =>
      readText?_of_hasNode hkey (hasNode_of_mem_scriptsOf hwell hx) hread
  · exact Script.modulePath_eq_modulePath_iff ha ha'
  · exact Script.modulePath_eq_iff_of_inside ha ha' hx hy

/-! ### A script beside the index of a directory -/

def cartManifest : String := "\x7b'data': ['v.xml']\x7d"

def cartMarkup : String :=
  "<odoo><script src='/sale/static/src/cart.js'/>" ++
    "<script src='/sale/static/src/cart/index.js'/></odoo>"

/-- A package whose markup names a script and the index of a directory of the same name. -/
def cartSite : Site where
  files := ((((({} : FileTree).addFile ["sale", "__manifest__.py"]
    cartManifest.toUTF8).addFile ["sale", "__init__.py"] "".toUTF8).addFile ["sale", "v.xml"]
    cartMarkup.toUTF8).addFile ["sale", "static", "src", "cart.js"] "".toUTF8).addFile
    ["sale", "static", "src", "cart", "index.js"] "".toUTF8
  settings := { discovery :=
    { manifestFiles := ["__manifest__.py"]
      skipPython := true
      skipReadme := true
      skipAssets := true
      skipLanguage := true } }

/-- The scripts of the package. -/
def cartScripts : List ScriptAt :=
  [⟨⟨"sale/static/src/cart.js"⟩, "sale/static/src/cart.js"⟩,
    ⟨⟨"sale/static/src/cart/index.js"⟩, "sale/static/src/cart/index.js"⟩]

lemma hasManifest_cartSite : HasManifest cartSite.files "sale" cartManifest where
  here := rfl
  isName := by decide
  top := by decide +kernel
  directory := by decide +kernel
  manifest := by decide +kernel

lemma wellNamed_cartSite : cartSite.files.WellNamed :=
  ((((FileTree.wellNamed_empty.addFile (by decide) _).addFile (by decide) _).addFile (by decide)
    _).addFile (by decide) _).addFile (by decide) _

lemma readText?_cartSite : ∀ e ∈ cartScripts, cartSite.files.readText? e.file = some "" := by
  have hread (ns : List String) (hns : ∀ n ∈ ns, IsName n)
      (hdirs : ∀ k < ns.length, cartSite.files.isDirectoryAt (["sale"] ++ ns.take k) = true)
      (hfile : cartSite.files.isDirectoryAt (["sale"] ++ ns) = false ∧
        cartSite.files.files.get? (["sale"] ++ ns) = some "".toUTF8) :
      cartSite.files.readText? ((Path.mk "sale").descend ns) = some "" :=
    FileTree.readText?_descend hns ((FileTree.place?_of_isName rfl
      hasManifest_cartSite.isName).trans (if_pos hasManifest_cartSite.top)) hdirs hfile
  have hcart :=
    hread ["static", "src", "cart.js"] (by decide) (by decide +kernel) (by decide +kernel)
  have hindex := hread ["static", "src", "cart", "index.js"] (by decide) (by decide +kernel)
    (by decide +kernel)
  simp only [cartScripts, List.forall_mem_cons, List.not_mem_nil, false_imp_iff, implies_true,
    and_true]
  exact ⟨hcart, hindex⟩

lemma fileName?_join (p : Path) {n : String} (hn : IsName n) : (p.join n).fileName? = some n := by
  rw [fileName?, components_join_name p hn, List.getLast?_concat]

lemma isScript_cartScripts : ∀ e ∈ cartScripts, isScript e.file = true := by
  have hcart : isScript ((Path.mk "sale/static/src").join "cart.js") = true := by
    rw [isScript, extension?, fileName?_join _ (by decide)]
    decide
  have hindex : isScript ((Path.mk "sale/static/src/cart").join "index.js") = true := by
    rw [isScript, extension?, fileName?_join _ (by decide)]
    decide
  simp only [cartScripts, List.forall_mem_cons, List.not_mem_nil, false_imp_iff, implies_true,
    and_true]
  exact ⟨hcart, hindex⟩

/-- Both scripts are read. -/
lemma analysed_cartScripts : cartSite.analysed .empty cartScripts = cartScripts := by
  have hkey :
      (Path.mk "sale/static/src/cart/index.js").key ≠ (Path.mk "sale/static/src/cart.js").key := by
    intro h
    have hcomps := components_of_key (p := (Path.mk "sale/static/src/cart").join "index.js")
      (q := (Path.mk "sale/static/src").join "cart.js") h
    rw [components_join_name _ (by decide), components_join_name _ (by decide)] at hcomps
    have hlast := congrArg List.getLast? hcomps
    simp at hlast
  have hnew : (PathSet.insert .empty ⟨"sale/static/src/cart.js"⟩).contains
      ⟨"sale/static/src/cart/index.js"⟩ = false := by
    rw [← Bool.not_eq_true, PathSet.contains_insert]
    simpa using hkey
  obtain ⟨hcart, hindex, -⟩ : _ ∧ _ ∧ True := by
    simpa only [cartScripts, List.forall_mem_cons, List.not_mem_nil, false_imp_iff, implies_true]
      using readText?_cartSite
  simp [cartScripts, analysed, hcart, hindex, hnew]

lemma dataFile_of_readText? {u : Markup.Unit} {package text : String}
    (hextension : f.extension? = some "xml") (htext : s.files.readText? f = some text)
    (hu : Markup.Unit.ofText? package text = some u) : s.dataFile package f = .markup u := by
  simp [dataFile, hextension, FileTree.isFile_of_readText? htext, htext, hu]

lemma extension?_markup : ((Path.mk "sale").join "v.xml").extension? = some "xml" := by
  rw [extension?, fileName?_join _ (by decide)]
  decide

/-- The markup of the package calls for the scripts. -/
lemma exists_dataFile_cartSite : ∃ u,
    cartSite.dataFile "sale" ((Path.mk "sale").join "v.xml") = .markup u ∧
      cartSite.markupScripts ⟨""⟩ u = cartScripts := by
  obtain ⟨u, hu, hscripts⟩ := Option.map_eq_some_iff.1
    (by decide +kernel : (Markup.Unit.ofText? "sale" cartMarkup).map Markup.Unit.scripts =
      some ["/sale/static/src/cart.js", "/sale/static/src/cart/index.js"])
  have htext : cartSite.files.readText? ((Path.mk "sale").join "v.xml") = some cartMarkup :=
    hasManifest_cartSite.readText? (by decide) (by decide +kernel)
  refine ⟨u, dataFile_of_readText? extension?_markup htext hu, ?_⟩
  have hmap : u.scripts.map (scriptAt ⟨""⟩) = cartScripts := by
    rw [hscripts]
    rfl
  rw [markupScripts, hmap]
  refine List.filter_eq_self.2 fun e he => ?_
  rw [FileTree.isFile_of_readText? (readText?_cartSite e he), isScript_cartScripts e he]
  rfl

lemma exists_readManifest_cart : ∃ fields, Source.readManifest cartManifest = .ok fields ∧
    (described "sale" fields).dataFiles = ["v.xml"] :=
  exists_of_toOption_map (by decide +kernel : (Source.readManifest cartManifest).toOption.map
    (fun fields => (described "sale" fields).dataFiles) = some ["v.xml"])

/-- Data files stand where the package lists them. -/
lemma dataPaths_cart (hskip : s.discovery.skipData = false) (h : p.dataFiles = ["v.xml"]) :
    s.dataPaths ⟨"sale"⟩ p = [(Path.mk "sale").join "v.xml"] := by
  rw [dataPaths, hskip, h]
  rfl

lemma parent?_sale : (Path.mk "sale").parent?.getD ⟨"sale"⟩ = ⟨""⟩ := by
  rw [parent?, components_of_isName (by decide)]
  decide

lemma scriptsOf_cartSite (hname : p.name = "sale") (hlisted : p.dataFiles = ["v.xml"]) :
    cartSite.scriptsOf ⟨"sale"⟩ p = cartScripts := by
  obtain ⟨u, hdata, hscripts⟩ := exists_dataFile_cartSite
  have hall : cartSite.scriptsOf ⟨"sale"⟩ p =
      [] ++ cartSite.dataScripts ⟨""⟩ "sale" [(Path.mk "sale").join "v.xml"] := by
    rw [scriptsOf, parent?_sale, hname, dataPaths_cart rfl hlisted]
    rfl
  rw [hall, List.nil_append, dataScripts, List.flatMap_singleton, hdata]
  exact hscripts

lemma exists_cartPackage : ∃ p described, cartSite.assemble ⟨"sale"⟩ = .ok (.package p) ∧
    cartSite.readManifests ⟨"sale"⟩ (cartSite.manifestsIn ⟨"sale"⟩) = .ok described ∧
    cartSite.readCode ((Path.mk "sale").join "__init__.py") described = .ok described ∧
    cartSite.analysed described.files (cartSite.scriptsOf ⟨"sale"⟩ p) = cartScripts := by
  obtain ⟨fields, hfields, hlisted⟩ := exists_readManifest_cart
  obtain ⟨u, hu, -⟩ := exists_dataFile_cartSite
  have hname : (described "sale" fields).name = "sale" := name_described (by decide) fields
  have hplain : cartSite.readScripts ⟨"sale"⟩
      (cartSite.readAside ⟨"sale"⟩ (described "sale" fields)) = described "sale" fields := rfl
  obtain ⟨q, hq⟩ : ∃ q, cartSite.readDataFiles ⟨""⟩ (described "sale" fields)
      [(Path.mk "sale").join "v.xml"] = .ok q := by
    rw [readDataFiles, List.foldlM_cons, readDataFile_eq, hname, hu]
    exact ⟨_, rfl⟩
  have hentry : cartSite.files.readText? ((Path.mk "sale").join "__init__.py") = some "" :=
    hasManifest_cartSite.readText? (by decide) (by decide +kernel)
  obtain ⟨digest, hassemble⟩ := HasManifest.exists_assemble (s := cartSite) (p := q) rfl rfl
    hasManifest_cartSite hfields (FileTree.isFile_of_readText? hentry) (if_pos rfl)
    (by rw [hplain, parent?_sale, dataPaths_cart rfl hlisted, hq])
  have hqname : (q.withDigest digest).name = "sale" := by
    have hgrows := (grows_readDataFiles hq).name
    exact hgrows.trans hname
  have hqlisted : (q.withDigest digest).dataFiles = ["v.xml"] := by
    rw [← hlisted, Package.dataFiles, Package.dataFiles, ← manifest_readDataFiles hq]
    rfl
  refine ⟨_, _, hassemble, hasManifest_cartSite.readManifests (s := cartSite) rfl rfl hfields,
    if_pos rfl, ?_⟩
  rw [scriptsOf_cartSite hqname hqlisted]
  exact analysed_cartScripts

theorem assemble_scripts_cart : ∃ p described coded, cartSite.assemble ⟨"sale"⟩ = .ok (.package p) ∧
    cartSite.readManifests ⟨"sale"⟩ (cartSite.manifestsIn ⟨"sale"⟩) = .ok described ∧
    cartSite.readCode ((Path.mk "sale").join "__init__.py") described = .ok coded ∧
    cartSite.FilesScripts p (cartSite.analysed coded.files (cartSite.scriptsOf ⟨"sale"⟩ p)) := by
  obtain ⟨p, -, hp, -⟩ := exists_cartPackage
  obtain ⟨described, coded, hdescribed, hcoded, hfiles, -⟩ :=
    assemble_scripts cartSite ⟨"sale"⟩ p wellNamed_cartSite hp
  exact ⟨p, described, coded, hp, hdescribed, hcoded, hfiles⟩

/-- It is not so that different scripts of a package have different names. -/
theorem not_modulePath_injective_of_analysed : ¬ ∀ (s : Site) (dir : Path)
    (p described coded : Package), s.files.WellNamed →
    s.assemble dir = .ok (.package p) → s.readManifests dir (s.manifestsIn dir) = .ok described →
    s.readCode (dir.join s.discovery.entryPoint) described = .ok coded →
    ∀ e ∈ s.analysed coded.files (s.scriptsOf dir p),
      ∀ e' ∈ s.analysed coded.files (s.scriptsOf dir p),
        Script.IsAddress e.address → Script.IsAddress e'.address → e.address ≠ e'.address →
        Script.modulePath e.address ≠ Script.modulePath e'.address := by
  intro h
  obtain ⟨p, described, hp, hdescribed, hcoded, hscripts⟩ := exists_cartPackage
  have hnames := h cartSite ⟨"sale"⟩ p described described wellNamed_cartSite hp
    hdescribed hcoded
  rw [hscripts] at hnames
  have hcart : Script.IsAddress "sale/static/src/cart.js" :=
    ⟨by simp [Text.isBlank], by decide +kernel⟩
  have hindex : Script.IsAddress "sale/static/src/cart/index.js" :=
    ⟨by simp [Text.isBlank], by decide +kernel⟩
  exact hnames _ List.mem_cons_self _ (List.mem_cons_of_mem _ List.mem_cons_self) hcart hindex
    (by decide) (by decide +kernel)

end Site

end AddonAtlas
