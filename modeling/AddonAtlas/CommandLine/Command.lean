import AddonAtlas.Catalog.Graphs
import AddonAtlas.CommandLine.Switch
import AddonAtlas.Files.Path

/-!
Commands, and the command lines that give them.
-/

namespace AddonAtlas.CommandLine

/-- Where packages come from, and which of them are selected. -/
structure Scope where
  roots : List Path := []
  saved : Option Path := none
  settings : Option Path := none
  keepTests : Bool := false
  pathFilter : Option String := none
  nameFilter : Option String := none
  states : Option Path := none
  wantedStates : String := "installed"

/-- A graph of a catalog. -/
inductive GraphQuery
  | modules (o : ModuleGraphOptions)
  | models (o : ModelGraphOptions)
  | views (o : ViewGraphOptions)
  | structure (o : StructureGraphOptions)

inductive GraphFormat
  | json
  | drawing
  deriving DecidableEq, Repr

inductive Command
  | scan (scope : Scope) (save : Option Path) (asData : Bool)
  | graph (scope : Scope) (query : GraphQuery) (format : GraphFormat)
  | report (scope : Scope)
  | newSettings (overwrite : Bool)

/-! ## The switches of the commands -/

def everywhere : List Switch :=
  [{ name := "help", short := some 'h', kind := .help },
    { name := "verbose", short := some 'v', repeatable := true }]

def atTop : List Switch :=
  everywhere ++ [{ name := "version", short := some 'V', kind := .version }]

def ofScope : List Switch :=
  everywhere ++
    [{ name := "path", short := some 'p', kind := .path, repeatable := true },
      { name := "load", short := some 'l', kind := .path },
      { name := "config", short := some 'c', kind := .path },
      { name := "no-test-filter" },
      { name := "path-filter", kind := .text },
      { name := "name-filter", kind := .text },
      { name := "states", kind := .path },
      { name := "state-filter", kind := .text, needs := some "states" }]

def ofFormat : Switch := { name := "format", kind := .choice ["json", "dot"] }

def ofGraph : List Switch :=
  ofScope ++ [{ name := "pattern", kind := .text }, { name := "show-lonely" }, { name := "full" },
    ofFormat]

def ofScan : List Switch := ofScope ++ [{ name := "save", kind := .path }, { name := "json" }]

def ofModules : List Switch :=
  ofGraph ++ [{ name := "depends" }, { name := "imports" }, { name := "refers" },
    { name := "migration", kind := .text }]

def ofModels : List Switch := ofGraph ++ [{ name := "no-inherit" }, { name := "no-inherits" }]

def ofViews : List Switch := ofGraph ++ [{ name := "no-inherit" }, { name := "no-calls" }]

def ofStructure : List Switch :=
  ofScope ++ [{ name := "modules", kind := .text }, { name := "models", kind := .text },
    { name := "views", kind := .text }, { name := "no-fields" }, ofFormat]

def ofNewSettings : List Switch := everywhere ++ [{ name := "force" }]

/-! ## Commands from the switches used -/

def Scope.ofUses (u : Uses) : Scope :=
  { roots := (u.valuesOf "path").map Path.mk
    saved := (u.value? "load").map Path.mk
    settings := (u.value? "config").map Path.mk
    keepTests := u.has "no-test-filter"
    pathFilter := u.value? "path-filter"
    nameFilter := u.value? "name-filter"
    states := (u.value? "states").map Path.mk
    wantedStates := (u.value? "state-filter").getD "installed" }

def GraphFormat.ofUses (u : Uses) : GraphFormat :=
  if u.value? "format" = some "dot" then .drawing else .json

def patternAt (u : Uses) (name : String) : String := (u.value? name).getD "*"

def graphOptions (u : Uses) : GraphOptions :=
  { pattern := patternAt u "pattern", skipLonely := !u.has "show-lonely", full := u.has "full" }

/-- The relations asked for; the declared dependencies if none is. -/
def relations (u : Uses) : List Relation :=
  (if u.has "depends" || !(u.has "imports" || u.has "refers") then [.depends] else []) ++
    (if u.has "imports" then [.imports] else []) ++ (if u.has "refers" then [.refers] else [])

def moduleQuery (u : Uses) : GraphQuery :=
  .modules { graphOptions u with relations := relations u, migration := u.value? "migration" }

def modelQuery (u : Uses) : GraphQuery :=
  .models { graphOptions u with
    inherit := !u.has "no-inherit", inherits := !u.has "no-inherits" }

def viewQuery (u : Uses) : GraphQuery :=
  .views { graphOptions u with inherit := !u.has "no-inherit", calls := !u.has "no-calls" }

def structureQuery (u : Uses) : GraphQuery :=
  .structure {
    packages := patternAt u "modules", models := patternAt u "models",
    views := patternAt u "views", fields := !u.has "no-fields" }

def scanCommand (u : Uses) : Command :=
  .scan (.ofUses u) ((u.value? "save").map Path.mk) (u.has "json")

def graphCommand (query : Uses → GraphQuery) (u : Uses) : Command :=
  .graph (.ofUses u) (query u) (.ofUses u)

/-! ## Command lines -/

/-- What help can be asked about. -/
def topics : List (List String) :=
  [[], ["scan"], ["graph"], ["graph", "modules"], ["graph", "models"], ["graph", "views"],
    ["graph", "structure"], ["report"], ["init"], ["help"]]

/-- A request for help about a topic. -/
def askHelp (topic : List String) : Stop := if topics.contains topic then .help else .misuse

/-- Read what follows the command for graphs. -/
def readGraph (words : List String) : Except Stop Command := do
  let (_, rest) ← readFrom everywhere ([], none) words
  match rest with
  | "modules" :: r => (readSwitches ofModules r).map (graphCommand moduleQuery)
  | "models" :: r => (readSwitches ofModels r).map (graphCommand modelQuery)
  | "views" :: r => (readSwitches ofViews r).map (graphCommand viewQuery)
  | "structure" :: r => (readSwitches ofStructure r).map (graphCommand structureQuery)
  | "help" :: r => .error (if r = ["help"] then .help else askHelp ("graph" :: r))
  | _ => .error .misuse

/-- Read a command line. -/
def Command.read (words : List String) : Except Stop Command := do
  let (_, rest) ← readFrom atTop ([], none) words
  match rest with
  | "scan" :: r => (readSwitches ofScan r).map scanCommand
  | "graph" :: r => readGraph r
  | "report" :: r => (readSwitches ofScope r).map fun u => .report (.ofUses u)
  | "init" :: r => (readSwitches ofNewSettings r).map fun u => .newSettings (u.has "force")
  | "help" :: r => .error (askHelp r)
  | _ => .error .misuse

end AddonAtlas.CommandLine
