import AddonAtlas.Discovery.Site
import AddonAtlas.Glob.Search
import AddonAtlas.Package.Manifest
import AddonAtlas.Script.Read
import AddonAtlas.Tool.ComplexityReport

/-!
Reading the scripts of a package.
-/

namespace AddonAtlas.Site

/-- The complexity of a script, as an external program reports it. -/
def scriptComplexity? (s : Site) (p : Path) : Option Float :=
  (s.output? s.settings.tools.scriptComplexity p).bind Tool.ComplexityReport.read?

/-- Read a script at an address, unless it has been read. -/
def readScript (s : Site) (p : Package) (file : Path) (address : String) : Package :=
  if p.files.contains file then p
  else
    let p := { p with files := p.files.insert file }
    match s.files.readText? file with
    | none => p
    | some text =>
      let m := { Script.read address text with complexity := s.scriptComplexity? file }
      { p with scriptModules := p.scriptModules.insert m.name m }

def isScript (file : Path) : Bool := file.extension? == some "js"

/-- A text without slashes at its ends. -/
def trimSlashes (s : String) : String :=
  String.ofList ((s.toList.dropWhile (· == '/')).reverse.dropWhile (· == '/')).reverse

/-- The address of a file below the directory that holds the packages. -/
def addressOf (parent file : Path) : String :=
  String.ofList (((file.below? parent).getD file).text.toList.map fun c =>
    if c = '\\' then '/' else c)

/-- Read the scripts that match one asset pattern. A malformed pattern matches nothing. -/
def readPattern (s : Site) (parent : Path) (p : Package) (pattern : String) : Package :=
  let files := (PathGlob.search? s.files (parent.join (trimSlashes pattern)).text).getD []
  (files.filter isScript).foldl (fun p file => s.readScript p file (addressOf parent file)) p

/-- Read the scripts that the manifest of a package lists. -/
def readAssets (s : Site) (p : Package) (parent : Path) : Package :=
  p.assetPatterns.foldl (s.readPattern parent) p

end AddonAtlas.Site
