import AddonAtlas.Digest.FileSet
import AddonAtlas.Discovery.DataFiles
import AddonAtlas.Discovery.Sources
import AddonAtlas.Tool.LineReport

/-!
Looking at one directory: is it a package, and what is in it?
-/

namespace AddonAtlas

/-- What a directory turns out to be. -/
inductive Candidate
  | package (p : Package)
  /-- A directory without a manifest, whose directories are searched. -/
  | folder
  /-- A directory with a manifest and without an entry point. -/
  | rejected

/-- Why a directory cannot be assembled. -/
inductive AssemblyError
  | notDirectory
  | manifest (path : Path) (e : Source.ManifestError)
  | entryPoint (path : Path) (e : Source.ParseFailure)
  /-- The sources that an entry point pulls in come to no end. -/
  | endless (path : Path)
  | dataFile (e : DataFileError)

def AssemblyError.message : AssemblyError → String
  | .notDirectory => "not a directory"
  | .manifest p _ => "invalid manifest '" ++ p.text ++ "'"
  | .entryPoint p _ => "entry point '" ++ p.text ++ "' not parsable"
  | .endless p => "endless sources behind '" ++ p.text ++ "'"
  | .dataFile e => e.message

/-- The cause behind the message, if it says more. -/
def AssemblyError.cause? : AssemblyError → Option String
  | .manifest _ e => e.cause?
  | .entryPoint _ e => e.message?
  | _ => none

/-- Why the sources behind an entry point are not read. -/
def Site.SourcesError.toAssembly (entry : Path) : SourcesError → AssemblyError
  | .entryPoint e => .entryPoint entry e
  | .endless => .endless entry

namespace Package

/-- Add the fields of a manifest; later manifests replace the fields of earlier ones. -/
def addManifest (p : Package) (fields : List (String × Value)) : Package :=
  let m := Value.fieldMap fields
  { p with
    depends := p.depends.insertMany (textsIn (m.get? "depends"))
    manifest := p.manifest.union m }

/-- The keywords of the name and of what the manifest says. -/
def addDescription (p : Package) (stopwords : NameSet) : Package :=
  [p.name, p.summary, p.description].foldl (fun q text => q.addKeywords stopwords text) p

end Package

namespace Site

def readManifest (s : Site) (p : Package) (file : Path) : Except AssemblyError Package :=
  match s.files.readText? file with
  | none => .error (.manifest file .unreadable)
  | some text => match Source.readManifest text with
    | .error e => .error (.manifest file e)
    | .ok fields => .ok (p.addManifest fields)

/-- A new package for a directory, with what its manifests say. -/
def readManifests (s : Site) (dir : Path) (manifests : List Path) :
    Except AssemblyError Package := do
  let p ← manifests.foldlM s.readManifest (Package.ofPath dir)
  let p :=
    if 1 < manifests.length then { p with status := p.status.insert Status.multipleManifest } else p
  pure (p.addDescription s.discovery.stopwords)

/-- The lines of code below a directory, as an external program counts them, unless they are too
many in all. -/
def languages? (s : Site) (dir : Path) : Option (NameMap LanguageShare) :=
  match s.output? s.settings.tools.lineCounter dir with
  | some report => Tool.LineReport.read? report
  | none => some .empty

/-- Read the sources of a package, if they are wanted. -/
def readCode (s : Site) (entry : Path) (p : Package) : Except AssemblyError Package :=
  if s.discovery.skipPython then .ok p
  else (s.readSources p entry).mapError (·.toAssembly entry)

/-- Read the readme of a package and its lines of code, if they are wanted. -/
def readAside (s : Site) (dir : Path) (p : Package) : Package :=
  let d := s.discovery
  let p := if d.skipReadme then p else p.addKeywords d.stopwords (p.readme s.files)
  if d.skipLanguage then p else { p with language := (s.languages? dir).getD .empty }

/-- Read the scripts that the manifest of a package lists, if they are wanted. -/
def readScripts (s : Site) (dir : Path) (p : Package) : Package :=
  if s.discovery.skipAssets then p else s.readAssets p (dir.parent?.getD dir)

/-- The data files of a package that are read. -/
def dataPaths (s : Site) (dir : Path) (p : Package) : List Path :=
  if s.discovery.skipData then [] else p.dataFiles.map dir.join

/-- The files that stand in a directory. -/
def filesIn (s : Site) (dir : Path) : List Path :=
  ((s.files.list? dir).getD []).map dir.join |>.filter s.files.isFile

/-- Read everything a package consists of. -/
def readPackage (s : Site) (dir : Path) (manifests : List Path) (entry : Path) :
    Except AssemblyError Package := do
  let p ← s.readManifests dir manifests
  let p ← s.readCode entry p
  let p := s.readScripts dir (s.readAside dir p)
  let dataFiles := s.dataPaths dir p
  let p ← (s.readDataFiles (dir.parent?.getD dir) p dataFiles).mapError .dataFile
  let touched := s.filesIn dir ++ dataFiles ++ manifests ++ p.files.paths
  pure { p with hashsum := Digest.fileSet s.files dir touched }

/-- The manifests in a directory. -/
def manifestsIn (s : Site) (dir : Path) : List Path :=
  (s.discovery.manifestFiles.map dir.join).filter s.files.isFile

/-- Find out what a directory is. -/
def assemble (s : Site) (dir : Path) : Except AssemblyError Candidate :=
  let manifests := s.manifestsIn dir
  let entry := dir.join s.discovery.entryPoint
  if !s.files.isDirectory dir then .error .notDirectory
  else if manifests.isEmpty then .ok .folder
  else if !s.files.isFile entry then .ok .rejected
  else (s.readPackage dir manifests entry).map .package

end Site

end AddonAtlas
