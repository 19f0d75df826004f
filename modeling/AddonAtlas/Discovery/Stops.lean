import AddonAtlas.Discovery.Walk

/-!
Where the program stops.

What a package counts are words, and a sum that is too large for one ends the program: that of the
lines of code in all languages, that of the rows of tables, and those of a record that is declared
more than once.
-/

namespace AddonAtlas.Site

/-- Whether a sum gets too large while a data file is read. -/
def dataFileStops (s : Site) (p : Package) (file : Path) : Bool :=
  match file.extension?, s.files.readText? file with
  | some "csv", some text => (Word.add? p.dataCount (UInt64.ofNat (tableRows text))).isNone
  | some "xml", some text => match Markup.Unit.ofText? p.name text with
    | some u => (u.records.foldlM Package.mergeRecord? p).isNone
    | none => false
  | _, _ => false

/-- Whether a sum gets too large while data files are read one after the other. -/
def dataFilesStop (s : Site) (parent : Path) : Package → List Path → Bool
  | _, [] => false
  | p, file :: rest => s.dataFileStops p file || match s.readDataFile parent p file with
    | .ok p => dataFilesStop s parent p rest
    | .error _ => false

/-- Whether a sum gets too large while a package is read whose sources have been read. -/
def contentsStop (s : Site) (dir : Path) (p : Package) : Bool :=
  let q := s.readScripts dir (s.readAside dir p)
  (!s.discovery.skipLanguage && (s.languages? dir).isNone) ||
    s.dataFilesStop (dir.parent?.getD dir) q (s.dataPaths dir q)

/-- Whether the program stops at a directory. -/
def stops (s : Site) (dir : Path) : Bool :=
  let manifests := s.manifestsIn dir
  let entry := dir.join s.discovery.entryPoint
  s.files.isDirectory dir && !manifests.isEmpty && s.files.isFile entry &&
    match s.readManifests dir manifests >>= s.readCode entry with
    | .ok p => s.contentsStop dir p
    | .error _ => false

/-- Whether the program stops at one of the directories that are searched. -/
def searchStops (s : Site) : (fuel depth : Nat) → List Path → Bool
  | 0, _, _ => false
  | n + 1, depth, level =>
    !level.isEmpty && s.reaches depth &&
      (level.any s.stops || searchStops s n (depth + 1) (level.flatMap s.next))

/-- All packages below some directories, unless the program stops. -/
def discover? (s : Site) (roots : List Path) : Option (List Package) :=
  if s.searchStops (s.files.directories.size + 1) 0 roots then none else some (s.discover roots)

end AddonAtlas.Site
