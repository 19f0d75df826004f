import AddonAtlas.Catalog.Filter
import AddonAtlas.Catalog.Saved
import AddonAtlas.Catalog.Summary
import AddonAtlas.Catalog.Usage
import AddonAtlas.CommandLine.Command
import AddonAtlas.Discovery.Stops
import AddonAtlas.Graph.Drawing
import AddonAtlas.Settings.File

/-!
Running commands on a tree of files.
-/

namespace AddonAtlas.CommandLine

/-- Why a command fails. -/
inductive CommandError
  | nothingToAnalyse
  | settings (path : Path) (e : Settings.LoadError)
  | unreadable (path : Path)
  /-- Saved packages that are malformed. -/
  | malformed (path : Path)
  | notDirectory (path : Path)
  | glob (e : GlobError)
  | unreadableStates (path : Path)
  | malformedStates (path : Path)
  | unwritable (path : Path)
  | settingsExist
  | unwritableSettings
  /-- A sum that is too large for a word. It stops the program. -/
  | overflow

def CommandError.message : CommandError → String
  | .nothingToAnalyse => "nothing to analyse: pass --path or --load"
  | .settings p e => e.message p.text
  | .unreadable p => "failed to read '" ++ p.text ++ "'"
  | .malformed p => "invalid data in '" ++ p.text ++ "': failed to parse package data"
  | .notDirectory p => "'" ++ p.text ++ "' is not a directory"
  | .glob e => e.message
  | .unreadableStates p => "failed to read states file '" ++ p.text ++ "'"
  | .malformedStates p => "failed to parse states file '" ++ p.text ++ "'"
  | .unwritable p => "failed to write '" ++ p.text ++ "'"
  | .settingsExist => Settings.fileName ++ " already exists. Use --force to overwrite."
  | .unwritableSettings => "failed to write " ++ Settings.fileName
  | .overflow => "attempt to add with overflow"

/-! ## Catalogs -/

/-- The settings for a scope: the file it names, or the one nearest to its first root. -/
def Scope.loadSettings (t : FileTree) (s : Scope) : Except CommandError Settings :=
  match s.settings with
  | some p => (Settings.load t p).mapError (.settings p)
  | none => .ok (Settings.find t (s.roots.headD ⟨"."⟩))

/-- Saved packages, if the scope names some. -/
def Scope.loadSaved (t : FileTree) (s : Scope) : Except CommandError (List Package) :=
  match s.saved with
  | none => .ok []
  | some p => match t.readText? p with
    | none => .error (.unreadable p)
    | some text => match Catalog.ofJson? text with
      | none => .error (.malformed p)
      | some c => .ok c.full.values

/-- The packages below the roots of a scope. -/
def Scope.discover (t : FileTree) (settings : Settings) (s : Scope) :
    Except CommandError (List Package) :=
  match s.roots.find? fun p => !t.isDirectory p with
  | some p => .error (.notDirectory p)
  | none => match Site.discover? { files := t, settings } s.roots with
    | some packages => .ok packages
    | none => .error .overflow

/-- Apply a filter if there is a pattern for it. -/
def filterBy (filter : String → Catalog.Filtering) (pattern : Option String) (c : Catalog) :
    Except CommandError Catalog :=
  match pattern with
  | some p => match (filter p).run c with
    | .ok _ c => .ok c
    | .error e _ => .error (.glob e)
  | none => .ok c

/-- Keep the packages with wanted states, if the scope names a file of states. -/
def Scope.filterStates (t : FileTree) (s : Scope) (c : Catalog) : Except CommandError Catalog :=
  match s.states with
  | none => .ok c
  | some p => match t.readText? p with
    | none => .error (.unreadableStates p)
    | some text => match Catalog.statesOfJson? text with
      | none => .error (.malformedStates p)
      | some states => .ok (c.stateFilter states s.wantedStates)

/-- The catalog of a scope, and the settings it was made with. -/
def Scope.load (t : FileTree) (s : Scope) : Except CommandError (Catalog × Settings) := do
  if s.roots.isEmpty && s.saved.isNone then throw .nothingToAnalyse
  let settings ← s.loadSettings t
  let saved ← s.loadSaved t
  let found ← s.discover t settings
  let c := Catalog.ofPackages (saved ++ found)
  let c := if s.keepTests then c else c.testFilter
  let c ← filterBy Catalog.pathFilter s.pathFilter c
  let c ← filterBy Catalog.nameFilter s.nameFilter c
  let c ← s.filterStates t c
  pure (c, settings)

/-! ## Graphs -/

/-- Options of a command under the settings for graphs. -/
def underSettings (settings : GraphSettings) (o : GraphOptions) : GraphOptions :=
  { o with
    skipLonely := settings.skipLonelyNodes && o.skipLonely
    full := settings.showFullDependency || o.full }

namespace GraphQuery

def name : GraphQuery → String
  | .modules _ => "modules"
  | .models _ => "models"
  | .views _ => "views"
  | .structure _ => "structure"

def view (c : Catalog) (settings : GraphSettings) : GraphQuery → Except CommandError GraphView
  | .modules o =>
    (c.moduleGraph
      { o with toGraphOptions := underSettings settings o.toGraphOptions }).mapError .glob
  | .models o =>
    (c.modelGraph
      { o with toGraphOptions := underSettings settings o.toGraphOptions }).mapError .glob
  | .views o =>
    if c.views?.isNone then .error .overflow
    else
      (c.viewGraph
        { o with toGraphOptions := underSettings settings o.toGraphOptions }).mapError .glob
  | .structure o => (c.structureGraph o).mapError .glob

end GraphQuery

def jsonLine (v : Value) : String := Json.pretty 0 v ++ "\n"

/-- What is printed of a view. -/
def printed (name : String) (v : GraphView) : GraphFormat → String
  | .json => jsonLine v.value
  | .drawing => v.drawing name

/-! ## Commands -/

/-- Save a catalog if a path for it is given. -/
def save (t : FileTree) (c : Catalog) : Option Path → Except CommandError FileTree
  | none => .ok t
  | some p => match t.write? p c.toJson.toUTF8 with
    | some t => .ok t
    | none => .error (.unwritable p)

/-- Write a settings file. An existing one stays unless it is to be overwritten. -/
def createSettings (t : FileTree) (overwrite : Bool) : Except CommandError (FileTree × String) :=
  let p : Path := ⟨Settings.fileName⟩
  if t.hasNode p && !overwrite then .error .settingsExist
  else match t.write? p Settings.defaultText.toUTF8 with
    | some t => .ok (t, "Created " ++ Settings.fileName ++ " with default configuration.\n")
    | none => .error .unwritableSettings

/-- Run a command: the files after it, and what it prints. -/
def Command.run (t : FileTree) : Command → Except CommandError (FileTree × String)
  | .scan scope path asData => do
    let (c, _) ← scope.load t
    let t ← save t c path
    pure (t, if asData then jsonLine c.summaryValue else c.summary false)
  | .graph scope query format => do
    let (c, settings) ← scope.load t
    let view ← query.view c settings.graph
    pure (t, printed query.name view format)
  | .report scope => do
    let (c, _) ← scope.load t
    pure (t, jsonLine (NameMap.value Usage.value c.dependencyReport))
  | .newSettings overwrite => createSettings t overwrite

/-! ## Whole runs -/

/-- How a run ends. -/
structure Result where
  files : FileTree
  status : Nat
  output : String := ""
  diagnostics : String := ""

def version : String := "addonscope 0.4.0\n"

def usage : String :=
  "Usage: addonscope [-v] <scan|graph|report|init>\n\n" ++
  "  scan       Discover packages and print a summary\n" ++
  "  graph      Print a dependency graph: modules, models, views or structure\n" ++
  "  report     Print the dependency usage report as JSON\n" ++
  "  init       Create a default " ++ Settings.fileName ++ " configuration file\n"

/-- The end of a run without a command. -/
def stopped (t : FileTree) : Stop → Result
  | .help => { files := t, status := 0, output := usage }
  | .version => { files := t, status := 0, output := version }
  | .misuse => { files := t, status := 2, diagnostics := usage }

/-- The status of a run that fails. One that the program stops has its own. -/
def CommandError.status : CommandError → Nat
  | .overflow => 101
  | _ => 2

/-- Run a command line. A run that fails changes no file. -/
def run (t : FileTree) (words : List String) : Result :=
  match Command.read words with
  | .error s => stopped t s
  | .ok c => match c.run t with
    | .ok (t, output) => { files := t, status := 0, output }
    | .error e => { files := t, status := e.status, diagnostics := "Error: " ++ e.message ++ "\n" }

end AddonAtlas.CommandLine
