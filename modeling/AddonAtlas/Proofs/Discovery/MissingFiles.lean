import AddonAtlas.Proofs.Discovery.Classes

/-!
Data files that do not exist.

A data file that is listed and missing is passed over, with a flag for the package if its name is
that of markup or of a table. All that is read besides is the same with other flags, so it may be
read without the missing files, and the flag be set at the end.
-/

namespace AddonAtlas

open AddonAtlas.Path

namespace Package

/-- A package with other flags. -/
def withStatus (p : Package) (status : NameSet) : Package := { p with status := status }

/-- A package without the flag of missing files and without its digest. -/
def unmarked (p : Package) : Package :=
  { p with status := p.status.erase Status.missingFile, hashsum := "" }

/-- A change of packages that does not look at their flags. -/
def IgnoresStatus (f : Package → Package) : Prop :=
  ∀ (p : Package) status, f (p.withStatus status) = (f p).withStatus status

variable {p : Package} {f g : Package → Package}

lemma IgnoresStatus.comp (hf : IgnoresStatus f) (hg : IgnoresStatus g) :
    IgnoresStatus fun p => g (f p) := fun p status =>
  (congrArg g (hf p status)).trans (hg (f p) status)

lemma IgnoresStatus.foldl {β : Type u} {step : Package → β → Package}
    (h : ∀ b, IgnoresStatus fun p => step p b) (l : List β) :
    IgnoresStatus fun p => l.foldl step p := fun _ status =>
  List.foldl_hom (fun q : Package => q.withStatus status) fun q b => h b q status

/-- What does not look at flags keeps them. -/
lemma IgnoresStatus.status_eq (h : IgnoresStatus f) (p : Package) : (f p).status = p.status := by
  have hsame : f p = (f p).withStatus p.status := h p p.status
  rw [hsame]
  rfl

lemma ignoresStatus_mergeRecord (r : Record) : IgnoresStatus fun p => p.mergeRecord r := by
  intro p status
  simp only [mergeRecord]
  split <;> rfl

end Package

namespace Site

open Package

variable {s : Site} {parent dir entry f : Path} {p q : Package} {l paths : List Path}

lemma ignoresStatus_readScript (file : Path) (address : String) :
    IgnoresStatus fun p => s.readScript p file address := by
  intro p status
  have hfiles : (p.withStatus status).files = p.files := rfl
  dsimp only
  rw [readScript, readScript, hfiles]
  split
  · rfl
  · cases s.files.readText? file <;> rfl

lemma ignoresStatus_readScripts : IgnoresStatus fun p => s.readScripts dir p := by
  intro p status
  simp only [readScripts]
  split
  · rfl
  · refine IgnoresStatus.foldl (fun pattern => ?_) p.assetPatterns p status
    exact IgnoresStatus.foldl (fun file => ignoresStatus_readScript file _) _

lemma ignoresStatus_readAside : IgnoresStatus fun p => s.readAside dir p := by
  intro p status
  simp only [readAside]
  cases s.discovery.skipReadme <;> cases s.discovery.skipLanguage <;> rfl

lemma ignoresStatus_addMarkup (u : Markup.Unit) :
    IgnoresStatus fun p => s.addMarkup parent p u := by
  have hrefers : IgnoresStatus fun p => { p with refers := p.refers.union u.refers } :=
    fun _ _ => rfl
  have hscript (n : String) : IgnoresStatus fun p => s.readNamedScript parent p n := by
    intro p status
    simp only [readNamedScript]
    split
    · exact ignoresStatus_readScript _ _ p status
    · rfl
  exact (hrefers.comp (.foldl ignoresStatus_mergeRecord u.records)).comp (.foldl hscript u.scripts)

/-! ## Data files -/

/-- A file that does not exist is missed if its name is that of markup or of a table. -/
def Misses (s : Site) (f : Path) : Prop :=
  (f.extension? = some "xml" ∨ f.extension? = some "csv") ∧ s.files.isFile f = false

instance (s : Site) (f : Path) : Decidable (s.Misses f) := inferInstanceAs (Decidable (_ ∧ _))

/-- Flag a package if a file is missed. -/
def flag (s : Site) (l : List Path) (p : Package) : Package :=
  if ∃ f ∈ l, s.Misses f then p.withStatus (p.status.insert Status.missingFile) else p

lemma dataFile_of_isFile (h : s.files.isFile f = true) (package : String) :
    s.dataFile package f ≠ .missing := by
  simp only [dataFile, h, Bool.not_true, Bool.false_eq_true, if_false]
  repeat' split
  all_goals simp

lemma readDataFile_of_not_isFile (h : s.files.isFile f = false) (p : Package) :
    s.readDataFile parent p f = .ok (s.flag [f] p) := by
  simp only [readDataFile, h, flag, List.mem_singleton, exists_eq_left, Misses]
  by_cases hxml : f.extension? = some "xml" <;> by_cases hcsv : f.extension? = some "csv" <;>
    simp [hxml, hcsv, withStatus]

lemma readDataFile_withStatus (h : s.files.isFile f = true) (p : Package) (status : NameSet) :
    s.readDataFile parent (p.withStatus status) f =
      (s.readDataFile parent p f).map fun q => q.withStatus status := by
  have hname : (p.withStatus status).name = p.name := rfl
  rw [readDataFile_eq, readDataFile_eq, hname]
  cases hx : s.dataFile p.name f with
  | missing => exact absurd hx (dataFile_of_isFile h p.name)
  | passed | failed | table => rfl
  | markup u =>
    exact congrArg Except.ok (ignoresStatus_addMarkup u { p with files := p.files.insert f } status)

/-- What existing data files add does not depend on the flags of the package. -/
lemma readDataFiles_withStatus (h : ∀ f ∈ l, s.files.isFile f = true) (p : Package)
    (status : NameSet) : s.readDataFiles parent (p.withStatus status) l =
      (s.readDataFiles parent p l).map fun q => q.withStatus status := by
  induction l generalizing p with
  | nil => rfl
  | cons f l ih =>
    obtain ⟨hf, hl⟩ := List.forall_mem_cons.1 h
    rw [readDataFiles, List.foldlM_cons, readDataFile_withStatus hf, readDataFiles,
      List.foldlM_cons]
    cases s.readDataFile parent p f with
    | error e => rfl
    | ok q => exact ih hl q

/-- Existing data files add no flags. -/
lemma status_readDataFiles (h : ∀ f ∈ l, s.files.isFile f = true)
    (hq : s.readDataFiles parent p l = .ok q) : q.status = p.status := by
  have hsame : s.readDataFiles parent p l =
      (s.readDataFiles parent p l).map fun q => q.withStatus p.status :=
    readDataFiles_withStatus h p p.status
  rw [hq] at hsame
  have hq : q = q.withStatus p.status := Except.ok.inj hsame
  rw [hq]
  rfl

lemma readDataFiles_flag (h : ∀ f ∈ l, s.files.isFile f = true) (p : Package) :
    s.readDataFiles parent (s.flag paths p) l =
      (s.readDataFiles parent p l).map (s.flag paths) := by
  by_cases hmissed : ∃ f ∈ paths, s.Misses f
  · rw [flag, if_pos hmissed, readDataFiles_withStatus h]
    cases hq : s.readDataFiles parent p l with
    | error e => rfl
    | ok q => simp only [Except.map, flag, if_pos hmissed, status_readDataFiles h hq]
  · have hflag : s.flag paths = id := funext fun p => if_neg hmissed
    rw [hflag, id]
    cases s.readDataFiles parent p l <;> rfl

lemma flag_flag (f : Path) (l : List Path) (p : Package) :
    s.flag l (s.flag [f] p) = s.flag (f :: l) p := by
  have htwice (p : Package) : (p.status.insert Status.missingFile).insert Status.missingFile =
      p.status.insert Status.missingFile := OrdSet.insert_of_mem (OrdSet.mem_insert.2 (.inl rfl))
  simp only [flag, List.mem_singleton, exists_eq_left, List.exists_mem_cons_iff]
  by_cases hf : s.Misses f <;> by_cases hl : ∃ g ∈ l, s.Misses g <;>
    simp [hf, hl, withStatus, htwice]

/-- Missing files may be left out, and the package be flagged at the end. -/
lemma readDataFiles_eq (l : List Path) (p : Package) :
    s.readDataFiles parent p l =
      (s.readDataFiles parent p (l.filter s.files.isFile)).map (s.flag l) := by
  induction l generalizing p with
  | nil => rfl
  | cons f l ih =>
    rw [readDataFiles, List.foldlM_cons]
    cases hf : s.files.isFile f with
    | true =>
      have hflag : s.flag (f :: l) = s.flag l := funext fun p =>
        if_congr (by simp [Misses, hf]) rfl rfl
      rw [List.filter_cons_of_pos hf, readDataFiles, List.foldlM_cons, hflag]
      cases s.readDataFile parent p f with
      | error e => rfl
      | ok q => exact ih q
    | false =>
      have hpresent : ∀ g ∈ l.filter s.files.isFile, s.files.isFile g = true := fun g hg =>
        (List.mem_filter.1 hg).2
      rw [List.filter_cons_of_neg (by simp [hf]), readDataFile_of_not_isFile hf]
      calc s.readDataFiles parent (s.flag [f] p) l
        _ = (s.readDataFiles parent (s.flag [f] p) (l.filter s.files.isFile)).map (s.flag l) :=
          ih (s.flag [f] p)
        _ = ((s.readDataFiles parent p (l.filter s.files.isFile)).map (s.flag [f])).map
            (s.flag l) := by rw [readDataFiles_flag hpresent]
        _ = (s.readDataFiles parent p (l.filter s.files.isFile)).map (s.flag (f :: l)) := by
          cases s.readDataFiles parent p (l.filter s.files.isFile) with
          | error e => rfl
          | ok q => exact congrArg Except.ok (flag_flag f l q)

/-! ## Where the flag comes from -/

lemma not_mem_singleton {flag : String} (h : Status.missingFile ≠ flag) :
    Status.missingFile ∉ (OrdSet.singleton flag : NameSet).toList := by
  rw [OrdSet.singleton, OrdSet.mem_insert]
  exact not_or.2 ⟨h, List.not_mem_nil⟩

lemma not_mem_status_mended {τ : Type} {g : Source.GrammarOf τ} {status : NameSet}
    {text? : Option String} {parsed : Source.Parsed τ}
    (hstatus : Status.missingFile ∉ status.toList)
    (h : g.mended status text? = .ok parsed) : Status.missingFile ∉ parsed.status.toList := by
  cases text? with
  | none => cases h
  | some text =>
    obtain ⟨t, -, h⟩ := exists_of_bind h
    obtain rfl := Except.ok.inj h
    dsimp only
    split
    · exact hstatus
    · rw [OrdSet.mem_insert]
      exact not_or.2 ⟨by decide, hstatus⟩

/-- How a source was read does not say that files are missing. -/
lemma not_mem_status_recover {τ : Type} {g : Source.GrammarOf τ}
    {converter : String → Source.Converted} {text : String} {parsed : Source.Parsed τ}
    (h : g.recover converter text = .ok parsed) : Status.missingFile ∉ parsed.status.toList := by
  unfold Source.GrammarOf.recover at h
  split at h
  · obtain rfl := Except.ok.inj h
    exact List.not_mem_nil
  split at h
  · obtain rfl := Except.ok.inj h
    exact not_mem_singleton (by decide)
  dsimp only at h
  split at h
  · split at h
    · cases h
    · split at h
      · obtain rfl := Except.ok.inj h
        exact not_mem_singleton (by decide)
      · exact not_mem_status_mended (not_mem_singleton (by decide)) h
  · exact not_mem_status_mended List.not_mem_nil h

lemma not_mem_status_readSource {u : Source.Unit} (h : s.readSource f = .ok u) :
    Status.missingFile ∉ u.status.toList := by
  unfold readSource at h
  split at h
  · cases h
  · obtain ⟨parsed, hparsed, h⟩ := exists_of_bind h
    obtain rfl := Except.ok.inj h
    exact not_mem_status_recover hparsed

lemma not_mem_status_addSource {u : Source.Unit} (hp : Status.missingFile ∉ p.status.toList)
    (hu : Status.missingFile ∉ u.status.toList) (imported : List String) :
    Status.missingFile ∉ (p.addSource u imported).status.toList := by
  obtain ⟨models, classes, hadd⟩ := exists_addSource p u imported
  rw [hadd, OrdSet.mem_union]
  exact not_or.2 ⟨hp, hu⟩

lemma not_mem_status_readQueue {n : Nat} {queue : List Path}
    (hp : Status.missingFile ∉ p.status.toList) (h : s.readQueue entry n p queue = .ok q) :
    Status.missingFile ∉ q.status.toList := by
  fun_induction readQueue s entry n p queue with
  | case1 => cases h
  | case2 n p queue hrest =>
    obtain rfl := Except.ok.inj h
    exact hp
  | case3 n p queue file rest hrest p' u hu ih =>
    have hp' : Status.missingFile ∉ p'.status.toList := hp
    exact ih (not_mem_status_addSource hp' (not_mem_status_readSource hu) _) h
  | case4 => cases h
  | case5 n p queue file rest hrest p' e he hkey ih => exact ih hp h

lemma not_mem_status_readCode (hp : Status.missingFile ∉ p.status.toList)
    (h : s.readCode entry p = .ok q) : Status.missingFile ∉ q.status.toList := by
  unfold readCode at h
  split at h
  · obtain rfl := Except.ok.inj h
    exact hp
  · exact not_mem_status_readQueue hp (eq_of_mapError h)

lemma status_readManifest (h : s.readManifest p f = .ok q) : q.status = p.status := by
  unfold readManifest at h
  split at h
  · cases h
  · split at h
    · cases h
    · obtain rfl := Except.ok.inj h
      rfl

lemma not_mem_status_readManifests (h : s.readManifests dir l = .ok p) :
    Status.missingFile ∉ p.status.toList := by
  have hfold (l : List Path) {p q : Package} (h : l.foldlM s.readManifest p = .ok q) :
      q.status = p.status := by
    induction l generalizing p with
    | nil =>
      obtain rfl := Except.ok.inj h
      rfl
    | cons f l ih =>
      rw [List.foldlM_cons] at h
      obtain ⟨r, hr, hrest⟩ := exists_of_bind h
      exact (ih hrest).trans (status_readManifest hr)
  obtain ⟨q, hq, h⟩ := exists_of_bind h
  obtain rfl := Except.ok.inj h
  have hempty : Status.missingFile ∉ q.status.toList := by
    rw [hfold l hq]
    exact List.not_mem_nil
  simp only [addDescription, addKeywords, List.foldl_cons, List.foldl_nil]
  split
  · rw [OrdSet.mem_insert]
    exact not_or.2 ⟨by decide, hempty⟩
  · exact hempty

/-- A package has the flag just if one of its data files is missed. -/
lemma mem_status_iff (hskip : s.discovery.skipData = false)
    (h : s.assemble dir = .ok (.package p)) :
    Status.missingFile ∈ p.status.toList ↔ ∃ f ∈ p.dataFiles, s.Misses (dir.join f) := by
  obtain ⟨described, coded, full, hstages⟩ := exists_stages h
  have hread := hstages.readDataFiles
  rw [readDataFiles_eq] at hread
  obtain ⟨q, hq, rfl⟩ := exists_of_map hread
  have hcoded : Status.missingFile ∉ q.status.toList := by
    rw [status_readDataFiles (fun f hf => (List.mem_filter.1 hf).2) hq,
      ignoresStatus_readScripts.status_eq, ignoresStatus_readAside.status_eq]
    exact not_mem_status_readCode (not_mem_status_readManifests hstages.readManifests)
      hstages.readCode
  have hstatus : p.status = (s.flag (s.dataPaths dir p) q).status :=
    (congrArg status hstages.digest).trans rfl
  have hpaths : (∃ f ∈ s.dataPaths dir p, s.Misses f) ↔
      ∃ f ∈ p.dataFiles, s.Misses (dir.join f) := by
    simp [dataPaths, hskip]
  rw [hstatus, ← hpaths]
  by_cases hmissed : ∃ f ∈ s.dataPaths dir p, s.Misses f
  · refine iff_of_true ?_ hmissed
    rw [flag, if_pos hmissed]
    exact OrdSet.mem_insert.2 (.inl rfl)
  · refine iff_of_false ?_ hmissed
    rw [flag, if_neg hmissed]
    exact hcoded

/-! ## What missing files change -/

lemma unmarked_flag (l : List Path) (p : Package) : (s.flag l p).unmarked = p.unmarked := by
  unfold flag
  split
  · have herase : (p.status.insert Status.missingFile).erase Status.missingFile =
        p.status.erase Status.missingFile := OrdSet.ext_mem fun n => by
      simp only [OrdSet.mem_erase, OrdSet.mem_insert]
      tauto
    simp only [unmarked, withStatus, herase]
  · rfl

variable {m : NameMap Value} {manifests : List Path} {fields fields' : List (String × Value)}

/-- Manifests that differ in their data files only describe a package alike. -/
lemma addDescription_of_agree (p : Package) (stopwords : NameSet)
    (h : ∀ k, k ≠ "data" → (Value.fieldMap fields').get? k = (Value.fieldMap fields).get? k) :
    (p.addManifest fields').addDescription stopwords =
      ((p.addManifest fields).addDescription stopwords).withManifest
        (p.manifest.union (Value.fieldMap fields')) := by
  have htext {k : String} (hk : k ≠ "data") :
      (p.addManifest fields').manifestText k = (p.addManifest fields).manifestText k := by
    have hget : (p.manifest.union (Value.fieldMap fields')).get? k =
        (p.manifest.union (Value.fieldMap fields)).get? k := by
      rw [OrdMap.get?_union, OrdMap.get?_union, h k hk]
    exact congrArg (fun v : Option Value => (v.bind Value.text?).getD "") hget
  have hdepends : (p.addManifest fields').depends = (p.addManifest fields).depends :=
    congrArg (fun v => p.depends.insertMany (textsIn v)) (h "depends" (by decide))
  simp only [addDescription, List.foldl_cons, List.foldl_nil, summary, description,
    htext (by decide : "summary" ≠ "data"), htext (by decide : "description" ≠ "data")]
  simp only [addKeywords, hdepends]
  rfl

/-- Flags and digests apart, only existing data files count. -/
lemma readData_unmarked (dir : Path) (manifests : List Path) (p : Package) :
    (s.readData dir manifests p).map unmarked =
      ((s.readDataFiles (dir.parent?.getD dir) p
        ((s.dataPaths dir p).filter s.files.isFile)).mapError AssemblyError.dataFile).map
          unmarked := by
  unfold readData
  dsimp only
  rw [readDataFiles_eq]
  cases s.readDataFiles (dir.parent?.getD dir) p ((s.dataPaths dir p).filter s.files.isFile) with
  | error e => rfl
  | ok q => exact congrArg Except.ok (unmarked_flag _ q)

lemma readData_withManifest_unmarked (hpresent :
    (s.dataPaths dir (p.withManifest m)).filter s.files.isFile =
      (s.dataPaths dir p).filter s.files.isFile) :
    (s.readData dir manifests (p.withManifest m)).map unmarked =
      (s.readData dir manifests p).map fun q => (q.withManifest m).unmarked := by
  have hright : (s.readData dir manifests p).map (fun q => (q.withManifest m).unmarked) =
      ((s.readData dir manifests p).map unmarked).map fun q => q.withManifest m := by
    cases s.readData dir manifests p <;> rfl
  rw [hright, readData_unmarked, readData_unmarked, hpresent, readDataFiles_withManifest]
  cases s.readDataFiles (dir.parent?.getD dir) p ((s.dataPaths dir p).filter s.files.isFile) <;> rfl

lemma readContents_unmarked (hassets : (p.withManifest m).assetPatterns = p.assetPatterns)
    (hpresent : (s.dataPaths dir (p.withManifest m)).filter s.files.isFile =
      (s.dataPaths dir p).filter s.files.isFile) :
    (s.readContents dir manifests entry (p.withManifest m)).map unmarked =
      (s.readContents dir manifests entry p).map fun q => (q.withManifest m).unmarked := by
  unfold readContents
  rw [readCode_withManifest]
  cases hq : s.readCode entry p with
  | error e => rfl
  | ok q =>
    have hmanifest : (s.readAside dir q).manifest = p.manifest := manifest_readAside_readCode hq
    have hscripts := readScripts_readAside_withManifest dir hq hassets
    have hpaths : s.dataPaths dir (s.readScripts dir (s.readAside dir q)) = s.dataPaths dir p :=
      dataPaths_congr ((manifest_readScripts dir _).trans hmanifest)
    have hpresent' :
        (s.dataPaths dir ((s.readScripts dir (s.readAside dir q)).withManifest m)).filter
        s.files.isFile = (s.dataPaths dir (s.readScripts dir (s.readAside dir q))).filter
          s.files.isFile := by
      rw [hpaths]
      exact hpresent
    simp only [Except.map, bind, Except.bind, hscripts]
    exact readData_withManifest_unmarked hpresent'

lemma dataPaths_eq (hskip : s.discovery.skipData = false) (dir : Path) (p : Package) :
    s.dataPaths dir p = p.dataFiles.map dir.join := by
  rw [dataPaths, hskip]
  rfl

lemma filter_dataPaths (hskip : s.discovery.skipData = false) (dir : Path) (p : Package) :
    (s.dataPaths dir p).filter s.files.isFile =
      (p.dataFiles.filter fun f => s.files.isFile (dir.join f)).map dir.join := by
  rw [dataPaths_eq hskip, List.filter_map]
  rfl

/-- A file that does not exist has a line with a dash. -/
lemma fileLine_of_not_isFile (h : s.files.isFile f = false) :
    Digest.fileLine s.files dir f = "-" ++ " " ++ String.ofList
      ((Digest.shown dir f).text.toList.map fun c => if c = '\\' then '/' else c) := by
  have hnone : s.files.readBytes? f = none := by
    rw [Option.eq_none_iff_forall_ne_some]
    intro c hc
    exact Bool.false_ne_true (h.symm.trans (FileTree.isFile_iff.2 ⟨c, hc⟩))
  rw [Digest.fileLine, hnone]
  rfl

/-- **Missing data files.** A package has the flag of missing files just if one of the data files
that its manifest lists does not exist and has the name of markup or of a table, and its digest
covers all data files that are listed, missing ones with a dash. Manifests that differ in their
data files only describe a package alike; and flags and digests apart, those that list the same
existing data files make the same package. -/
theorem assemble_missing (s : Site) (dir : Path) (hskip : s.discovery.skipData = false) :
    (∀ p, s.assemble dir = .ok (.package p) →
      (Status.missingFile ∈ p.status.toList ↔ ∃ f ∈ p.dataFiles, s.Misses (dir.join f)) ∧
      p.hashsum = Digest.fileSet s.files dir
        (s.filesIn dir ++ p.dataFiles.map dir.join ++ s.manifestsIn dir ++ p.files.paths)) ∧
    (∀ f, s.files.isFile f = false → Digest.fileLine s.files dir f = "-" ++ " " ++ String.ofList
      ((Digest.shown dir f).text.toList.map fun c => if c = '\\' then '/' else c)) ∧
    (∀ (p : Package) stopwords fields fields',
      (∀ k, k ≠ "data" → (Value.fieldMap fields').get? k = (Value.fieldMap fields).get? k) →
      (p.addManifest fields').addDescription stopwords =
        ((p.addManifest fields).addDescription stopwords).withManifest
          (p.manifest.union (Value.fieldMap fields'))) ∧
    ∀ manifests entry (p : Package) (m : NameMap Value),
      (p.withManifest m).assetPatterns = p.assetPatterns →
      ((p.withManifest m).dataFiles.filter fun f => s.files.isFile (dir.join f)) =
        (p.dataFiles.filter fun f => s.files.isFile (dir.join f)) →
      (s.readContents dir manifests entry (p.withManifest m)).map unmarked =
        (s.readContents dir manifests entry p).map fun q => (q.withManifest m).unmarked := by
  refine ⟨fun p hp => ⟨mem_status_iff hskip hp, ?_⟩, ?_, ?_, ?_⟩
  · obtain ⟨described, coded, full, hstages⟩ := exists_stages hp
    rw [hstages.hashsum, touched, dataPaths_eq hskip]
  · intro f hf
    exact fileLine_of_not_isFile hf
  · intro p stopwords fields fields' h
    exact addDescription_of_agree p stopwords h
  · intro manifests entry p m hassets hpresent
    refine readContents_unmarked hassets ?_
    rw [filter_dataPaths hskip, filter_dataPaths hskip, hpresent]

/-! ### A package that lists a file that does not exist -/

/-- A site of which only manifests and data files are read. -/
def dataSite (t : FileTree) : Site where
  files := t
  settings := { discovery :=
    { manifestFiles := ["__manifest__.py"]
      skipPython := true
      skipReadme := true
      skipAssets := true
      skipLanguage := true } }

/-- A package with a manifest and an empty entry point. -/
def listingTree (manifest : String) : FileTree :=
  (({} : FileTree).addFile ["sale", "__init__.py"] "".toUTF8).addFile
    ["sale", "__manifest__.py"] manifest.toUTF8

lemma hasManifest_listingTree (manifest : String) :
    HasManifest (listingTree manifest) "sale" manifest where
  here := rfl
  isName := by decide
  top := (by decide +kernel : (listingTree "").isDirectoryAt [] = true)
  directory := (by decide +kernel : (listingTree "").isDirectoryAt ["sale"] = true)
  manifest := ⟨(by decide +kernel :
    (listingTree "").isDirectoryAt ["sale", "__manifest__.py"] = false),
    OrdMap.get?_insert_self _ _ _⟩

variable {manifest name : String}

/-- The data file that is listed does not exist. -/
lemma isFile_listingTree (hname : IsName name) (hentry : name ≠ "__init__.py")
    (hmanifest : name ≠ "__manifest__.py") :
    (listingTree manifest).isFile ((Path.mk "sale").join name) = false := by
  rw [← Bool.not_eq_true, FileTree.isFile_iff]
  rintro ⟨c, hc⟩
  obtain ⟨here, hplace, -, hget⟩ := FileTree.readBytes?_eq_some_iff.1 hc
  rw [(hasManifest_listingTree manifest).place? hname] at hplace
  obtain rfl := Option.some.inj hplace
  simp only [listingTree, FileTree.addFile, OrdMap.get?_insert] at hget
  simp [hentry, hmanifest] at hget

/-- The fields of a manifest that lists one data file and says nothing else. -/
def listsOnly (name : String) : List (String × Value) → Bool
  | [(key, .list [.text f])] => key == "data" && f == name
  | _ => false

lemma readManifest_of_listsOnly (manifest name : String)
    (h : (Source.readManifest manifest).toOption.any (listsOnly name) = true) :
    Source.readManifest manifest = .ok [("data", .list [.text name])] := by
  cases hread : Source.readManifest manifest with
  | error e =>
    rw [hread] at h
    cases h
  | ok fields =>
    rw [hread] at h
    have hfields : listsOnly name fields = true := h
    unfold listsOnly at hfields
    split at hfields
    · obtain ⟨rfl, rfl⟩ := by simpa using hfields
      rfl
    · cases hfields

lemma dataFiles_described (name : String) :
    (described "sale" [("data", .list [.text name])]).dataFiles = [name] := by
  have hmanifest : (described "sale" [("data", .list [.text name])]).manifest =
      OrdMap.union .empty (.ofList [("data", .list [.text name])]) := rfl
  have hdata : (described "sale" [("data", .list [.text name])]).manifest.get? "data" =
      some (.list [.text name]) := by
    rw [hmanifest, OrdMap.get?_union, OrdMap.get?_ofList]
    simp
  rw [dataFiles, hdata]
  rfl

/-- The directory makes a package all the same. -/
lemma exists_listing (hname : IsName name) (hentry : name ≠ "__init__.py")
    (hmanifest : name ≠ "__manifest__.py")
    (hread : Source.readManifest manifest = .ok [("data", .list [.text name])]) :
    ∃ p, (dataSite (listingTree manifest)).assemble ⟨"sale"⟩ = .ok (.package p) ∧
      p.dataFiles = [name] := by
  set q := described "sale" [("data", .list [.text name])]
  have hfile :
      (dataSite (listingTree manifest)).files.isFile ((Path.mk "sale").join name) = false :=
    isFile_listingTree hname hentry hmanifest
  have hpaths : (dataSite (listingTree manifest)).dataPaths ⟨"sale"⟩ q =
      [(Path.mk "sale").join name] := by
    rw [dataPaths_eq rfl, dataFiles_described]
    rfl
  have hdata (parent : Path) : (dataSite (listingTree manifest)).readDataFiles parent q
      ((dataSite (listingTree manifest)).dataPaths ⟨"sale"⟩ q) =
        .ok ((dataSite (listingTree manifest)).flag [(Path.mk "sale").join name] q) := by
    rw [hpaths, readDataFiles, List.foldlM_cons, readDataFile_of_not_isFile hfile]
    rfl
  have hinit :
      (dataSite (listingTree manifest)).files.isFile ((Path.mk "sale").join "__init__.py") =
      true := by
    have hplain : (listingTree manifest).isDirectoryAt ["sale", "__init__.py"] = false :=
      (by decide +kernel : (listingTree "").isDirectoryAt ["sale", "__init__.py"] = false)
    have hempty : (listingTree manifest).files.get? ["sale", "__init__.py"] = some "".toUTF8 := by
      simp [listingTree, FileTree.addFile, OrdMap.get?_insert]
    exact FileTree.isFile_of_readText?
      ((hasManifest_listingTree manifest).readText? (by decide) ⟨hplain, hempty⟩)
  obtain ⟨digest, hassemble⟩ := HasManifest.exists_assemble
    (s := dataSite (listingTree manifest)) rfl rfl (hasManifest_listingTree manifest) hread hinit
    (q := q) rfl (hdata _)
  have hkept : ((dataSite (listingTree manifest)).flag [(Path.mk "sale").join name] q).dataFiles =
      q.dataFiles := by
    unfold flag
    split <;> rfl
  exact ⟨_, hassemble, hkept.trans (dataFiles_described name)⟩

lemma misses_listingTree (manifest : String) {extension : String} (hname : IsName name)
    (hentry : name ≠ "__init__.py") (hmanifest : name ≠ "__manifest__.py")
    (hextension : ((Path.mk "sale").join name).extension? = some extension) :
    (dataSite (listingTree manifest)).Misses ((Path.mk "sale").join name) ↔
      extension = "xml" ∨ extension = "csv" := by
  have hfile :
      (dataSite (listingTree manifest)).files.isFile ((Path.mk "sale").join name) = false :=
    isFile_listingTree hname hentry hmanifest
  simp [Misses, hfile, hextension]

theorem assemble_missing_markup : ∃ p,
    (dataSite (listingTree "\x7b'data':['gone.xml']\x7d")).assemble ⟨"sale"⟩ = .ok (.package p) ∧
      Status.missingFile ∈ p.status.toList := by
  have hread :=
    readManifest_of_listsOnly "\x7b'data':['gone.xml']\x7d" "gone.xml" (by decide +kernel)
  obtain ⟨p, hp, hdata⟩ := exists_listing (by decide) (by decide) (by decide) hread
  refine ⟨p, hp, ((assemble_missing _ _ rfl).1 p hp).1.2 ⟨"gone.xml", by simp [hdata], ?_⟩⟩
  have hextension : ((Path.mk "sale").join "gone.xml").extension? = some "xml" := by
    rw [extension?, fileName?, components_join_name _ (by decide), List.getLast?_concat]
    decide
  exact (misses_listingTree _ (by decide) (by decide) (by decide) hextension).2 (.inl rfl)

/-- It is not so that every missing data file is flagged. -/
theorem not_mem_status_iff : ¬ ∀ (s : Site) (dir : Path) (p : Package),
    s.discovery.skipData = false → s.assemble dir = .ok (.package p) →
    (Status.missingFile ∈ p.status.toList ↔
      ∃ f ∈ p.dataFiles, s.files.isFile (dir.join f) = false) := by
  intro h
  have hread :=
    readManifest_of_listsOnly "\x7b'data':['gone.txt']\x7d" "gone.txt" (by decide +kernel)
  obtain ⟨p, hp, hdata⟩ := exists_listing (by decide) (by decide) (by decide) hread
  have hmem := (h _ _ p rfl hp).2
    ⟨"gone.txt", by simp [hdata], isFile_listingTree (by decide) (by decide) (by decide)⟩
  rw [mem_status_iff rfl hp, hdata] at hmem
  have hextension : ((Path.mk "sale").join "gone.txt").extension? = some "txt" := by
    rw [extension?, fileName?, components_join_name _ (by decide), List.getLast?_concat]
    decide
  have hmissed := misses_listingTree "\x7b'data':['gone.txt']\x7d" (by decide)
    (by decide) (by decide) hextension
  simp [hmissed] at hmem

end Site

end AddonAtlas
