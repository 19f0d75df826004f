import AddonAtlas.Discovery.Imports
import AddonAtlas.Discovery.Site
import AddonAtlas.Package.Basic
import AddonAtlas.Source.Converter
import AddonAtlas.Source.Unit

/-!
Reading the sources of a package: its entry point, and whatever they import from beside them.

Sources are read in the order in which they are met, each one once. A source that cannot be read
counts as a file of the package and says nothing, unless it is the entry point.
-/

namespace AddonAtlas

namespace Site

/-- Read a source. -/
def readSource (s : Site) (p : Path) : Except Source.ParseFailure Source.Unit :=
  match s.files.readText? p with
  | none => .error .unreadable
  | some text => Source.Unit.ofText (Source.runConverter s.tools s.settings.tools) text s.fault?

/-- The sources beside a source that it imports. -/
def localSources (s : Site) (file : Path) (imports : List String) : List Path :=
  let dir := file.parent?.getD ⟨"."⟩
  imports.flatMap fun i => match Import.classify s.discovery i with
    | .localSource => Import.resolve s.files s.discovery.entryPoint dir i
    | _ => []

/-- The packages that imports name. -/
def importedPackages (s : Site) (imports : List String) : List String :=
  imports.filterMap fun i => match Import.classify s.discovery i with
    | .package n => some n
    | _ => none

end Site

namespace Package

/-- File a class: as a piece of a model if it has a name, else under its identifier. -/
def addClass (p : Package) (c : String × Model) : Package :=
  let m := c.2.adoptInheritName
  match m.name with
  | some n => p.mergeModel m n
  | none => { p with classes := p.classes.insert c.1 m }

/-- Add what a source declares. -/
def addSource (p : Package) (u : Source.Unit) (imported : List String) : Package :=
  let p := { p with status := p.status.union u.status }
  let p := u.classes.foldl addClass p
  { p with imports := p.imports.insertMany (imported.filter fun n => n ≠ p.name) }

end Package

namespace Site

/-- Why the sources of a package are not read. -/
inductive SourcesError
  /-- The entry point cannot be read. -/
  | entryPoint (e : Source.ParseFailure)
  /-- There is fuel for fewer sources than there are. -/
  | endless

/-- Read sources from a queue and those that they import, as long as there is fuel for them. -/
def readQueue (s : Site) (entry : Path) : (fuel : Nat) → Package → List Path →
    Except SourcesError Package
  | 0, _, _ => .error .endless
  | n + 1, p, queue =>
    match queue.dropWhile p.files.contains with
    | [] => .ok p
    | file :: rest =>
      let p := { p with files := p.files.insert file }
      match s.readSource file with
      | .ok u => readQueue s entry n (p.addSource u (s.importedPackages u.imports))
          (rest ++ s.localSources file u.imports)
      | .error e =>
        if file.key = entry.key then .error (.entryPoint e) else readQueue s entry n p rest

/-- Read the entry point of a package and everything it pulls in. Below the directory of the package
and below the top each file of the tree has one path, so the fuel lasts if the entry point is one
file name. Through an entry point with steps up, sources can import themselves by ever longer
paths. -/
def readSources (s : Site) (p : Package) (entry : Path) : Except SourcesError Package :=
  s.readQueue entry (2 * s.files.files.size + 1) p [entry]

end Site

end AddonAtlas
