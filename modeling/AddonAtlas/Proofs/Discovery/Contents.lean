import AddonAtlas.Discovery.Assemble
import AddonAtlas.Proofs.Source.Recovery

/-!
What is read of a package after its manifests.

The manifest itself decides only which scripts and which data files are read. With another manifest
that lists the same ones, the same is read.
-/

namespace AddonAtlas

/-- A package with another manifest. -/
def Package.withManifest (p : Package) (m : NameMap Value) : Package := { p with manifest := m }

/-- A package with another digest of its files. -/
def Package.withDigest (p : Package) (digest : String) : Package := { p with hashsum := digest }

namespace Site

/-- Read the data files of a package and take the digest of all that was touched. -/
def readData (s : Site) (dir : Path) (manifests : List Path) (p : Package) :
    Except AssemblyError Package := do
  let dataFiles := s.dataPaths dir p
  let p ← (s.readDataFiles (dir.parent?.getD dir) p dataFiles).mapError .dataFile
  let touched := s.filesIn dir ++ dataFiles ++ manifests ++ p.files.paths
  pure (p.withDigest (Digest.fileSet s.files dir touched))

/-- Read all of a package but its manifests. -/
def readContents (s : Site) (dir : Path) (manifests : List Path) (entry : Path) (p : Package) :
    Except AssemblyError Package := do
  let p ← s.readCode entry p
  s.readData dir manifests (s.readScripts dir (s.readAside dir p))

lemma readPackage_eq (s : Site) (dir : Path) (manifests : List Path) (entry : Path) :
    s.readPackage dir manifests entry =
      s.readManifests dir manifests >>= s.readContents dir manifests entry := by
  simp only [readPackage, readContents, readCode, readData, dataPaths, bind, Except.bind, pure,
    Except.pure]
  cases s.readManifests dir manifests with
  | error e => rfl
  | ok p =>
    by_cases hskip : s.discovery.skipPython = true
    · simp only [hskip, if_true]
      rfl
    · simp only [hskip, if_false, Bool.false_eq_true]
      cases s.readSources p entry <;> simp only [Except.mapError]
      rfl

/-! ## Digests -/

lemma withDigest_withDigest (p : Package) (c d : String) :
    (p.withDigest c).withDigest d = p.withDigest d := rfl

lemma withManifest_withDigest (p : Package) (m : NameMap Value) (digest : String) :
    (p.withDigest digest).withManifest m = (p.withManifest m).withDigest digest := rfl

/-! ## Other manifests -/

/-- A change that each step passes on is passed on by a run that can fail. -/
lemma foldlM_map {ε : Type u} {α : Type v} {β : Type w} {step : α → β → Except ε α} (f : α → α)
    (h : ∀ a b, step (f a) b = (step a b).map f) (l : List β) (a : α) :
    l.foldlM step (f a) = (l.foldlM step a).map f := by
  induction l generalizing a with
  | nil => rfl
  | cons b l ih =>
    rw [List.foldlM_cons, List.foldlM_cons, h]
    cases step a b with
    | error e => rfl
    | ok a' => exact ih a'

variable {s : Site} {p : Package} {m : NameMap Value}

lemma addClass_withManifest (p : Package) (c : String × Model) :
    (p.withManifest m).addClass c = (p.addClass c).withManifest m := by
  unfold Package.addClass
  dsimp only
  split <;> rfl

lemma addSource_withManifest (p : Package) (u : Source.Unit) (imported : List String) :
    (p.withManifest m).addSource u imported = (p.addSource u imported).withManifest m := by
  have hclasses : u.classes.foldl Package.addClass
      (({ p with status := p.status.union u.status } : Package).withManifest m) =
      (u.classes.foldl Package.addClass
        { p with status := p.status.union u.status }).withManifest m :=
    List.foldl_hom (fun q : Package => q.withManifest m) addClass_withManifest
  exact congrArg (fun q : Package =>
    { q with imports := q.imports.insertMany (imported.filter fun n => n ≠ q.name) }) hclasses

lemma readQueue_withManifest (entry : Path) (n : Nat) (p : Package) (queue : List Path) :
    s.readQueue entry n (p.withManifest m) queue =
      (s.readQueue entry n p queue).map fun q => q.withManifest m := by
  fun_induction readQueue s entry n p queue with
  | case1 p queue => rfl
  | case2 n p queue hrest => simp [readQueue, Package.withManifest, hrest, Except.map]
  | case3 n p queue file rest hrest p' u hu ih =>
    rw [readQueue]
    simp only [Package.withManifest] at ih ⊢
    simp only [hrest, hu]
    rw [← ih]
    exact congrArg (fun q => s.readQueue entry n q _) (addSource_withManifest p' u _)
  | case4 n p queue file rest hrest e he hkey =>
    rw [readQueue]
    simp only [Package.withManifest, hrest, he, if_pos hkey]
    rfl
  | case5 n p queue file rest hrest p' e he hkey ih =>
    rw [readQueue]
    simp only [Package.withManifest] at ih ⊢
    simp only [hrest, he, if_neg hkey]
    exact ih

lemma readScript_withManifest (p : Package) (file : Path) (address : String) :
    s.readScript (p.withManifest m) file address =
      (s.readScript p file address).withManifest m := by
  have hfiles : (p.withManifest m).files = p.files := rfl
  rw [readScript, readScript, hfiles]
  split
  · rfl
  · cases s.files.readText? file <;> rfl

lemma readPattern_withManifest (parent : Path) (p : Package) (pattern : String) :
    s.readPattern parent (p.withManifest m) pattern =
      (s.readPattern parent p pattern).withManifest m := by
  rw [readPattern, readPattern]
  exact List.foldl_hom (fun q : Package => q.withManifest m) fun q file =>
    readScript_withManifest q file (addressOf parent file)

lemma readAssets_withManifest (parent : Path)
    (h : (p.withManifest m).assetPatterns = p.assetPatterns) :
    s.readAssets (p.withManifest m) parent = (s.readAssets p parent).withManifest m := by
  rw [readAssets, readAssets, h]
  exact List.foldl_hom (fun q : Package => q.withManifest m) (readPattern_withManifest parent)

lemma readCode_withManifest (entry : Path) (p : Package) :
    s.readCode entry (p.withManifest m) = (s.readCode entry p).map fun q => q.withManifest m := by
  unfold readCode
  split
  · rfl
  · rw [readSources, readQueue_withManifest, readSources]
    cases s.readQueue entry (2 * s.files.files.size + 1) p [entry] <;> rfl

lemma readAside_withManifest (dir : Path) (p : Package) :
    s.readAside dir (p.withManifest m) = (s.readAside dir p).withManifest m := by
  simp only [readAside]
  cases s.discovery.skipReadme <;> cases s.discovery.skipLanguage <;> rfl

lemma readScripts_withManifest (dir : Path)
    (h : (p.withManifest m).assetPatterns = p.assetPatterns) :
    s.readScripts dir (p.withManifest m) = (s.readScripts dir p).withManifest m := by
  unfold readScripts
  split
  · rfl
  · exact readAssets_withManifest _ h

/-! ## The manifest stays -/

lemma manifest_readCode {q : Package} {entry : Path} (h : s.readCode entry p = .ok q) :
    q.manifest = p.manifest := by
  have hsame : s.readCode entry p = (s.readCode entry p).map fun q => q.withManifest p.manifest :=
    readCode_withManifest entry p
  rw [h] at hsame
  have hq : q = q.withManifest p.manifest := Except.ok.inj hsame
  rw [hq]
  rfl

lemma manifest_readAside (dir : Path) (p : Package) :
    (s.readAside dir p).manifest = p.manifest := by
  have hsame : s.readAside dir p = (s.readAside dir p).withManifest p.manifest :=
    readAside_withManifest dir p
  rw [hsame]
  rfl

lemma manifest_readScripts (dir : Path) (p : Package) :
    (s.readScripts dir p).manifest = p.manifest := by
  have hsame : s.readScripts dir p = (s.readScripts dir p).withManifest p.manifest :=
    readScripts_withManifest dir rfl
  rw [hsame]
  rfl

end Site

end AddonAtlas
