import AddonAtlas.Package.Basic
import AddonAtlas.Files.Tree

/-!
What a package's manifest says, and its readme.
-/

namespace AddonAtlas

/-- Whether a value counts as true: zero, empty texts and empty containers do not. -/
def Value.isTruthy : Value → Bool
  | .null => false
  | .bool b => b
  | .int n => n ≠ 0
  | .float x => x != 0.0
  | .text s => !s.isEmpty
  | .list l => !l.isEmpty
  | .object l => !l.isEmpty

namespace Package

/-- The text at a key of the manifest, empty if there is none. -/
def manifestText (p : Package) (key : String) : String :=
  ((p.manifest.get? key).bind Value.text?).getD ""

def author (p : Package) : String := p.manifestText "author"

def category (p : Package) : String := p.manifestText "category"

def description (p : Package) : String := p.manifestText "description"

def license (p : Package) : String := p.manifestText "license"

def summary (p : Package) : String := p.manifestText "summary"

def version (p : Package) : String := p.manifestText "version"

def website (p : Package) : String := p.manifestText "website"

def externalDependencies (p : Package) : Value :=
  (p.manifest.get? "external_dependencies").getD (.object [])

def manifestFlag (p : Package) (key : String) : Bool :=
  ((p.manifest.get? key).map Value.isTruthy).getD false

def installable (p : Package) : Bool := p.manifestFlag "installable"

def autoInstall (p : Package) : Bool := p.manifestFlag "auto_install"

/-- The texts in a list. -/
def textsIn : Option Value → List String
  | some (.list vs) => vs.filterMap Value.text?
  | _ => []

/-- The data files that the manifest lists. -/
def dataFiles (p : Package) : List String := textsIn (p.manifest.get? "data")

/-- The pattern in one entry of an asset bundle: a text, or the last part of a directive that is no
removal. -/
def assetPattern? : Value → Option String
  | .text s => some s
  | .list vs =>
    if (vs.head?.bind Value.text?) = some "remove" then none else vs.getLast?.bind Value.text?
  | _ => none

/-- The asset patterns of all bundles. -/
def assetPatterns (p : Package) : List String :=
  match p.manifest.get? "assets" with
  | some (.object bundles) => bundles.flatMap fun b => match b.2 with
    | .list entries => entries.filterMap assetPattern?
    | _ => []
  | _ => []

/-- Whether a file name is that of a readme. -/
def isReadme (name : String) : Bool :=
  "readme.".toList.isPrefixOf name.toList || "README.".toList.isPrefixOf name.toList

/-- The first readme in the directory of a package. -/
def readmePath? (p : Package) (t : FileTree) : Option Path :=
  (t.list? p.path).bind fun names => (names.find? isReadme).map p.path.join

/-- The text of the readme, empty if there is none. -/
def readme (p : Package) (t : FileTree) : String := ((p.readmePath? t).bind t.readText?).getD ""

/-- The extension of the readme with its dot. -/
def readmeExtension? (p : Package) (t : FileTree) : Option String :=
  ((p.readmePath? t).bind Path.extension?).map ("." ++ ·)

end Package

end AddonAtlas
