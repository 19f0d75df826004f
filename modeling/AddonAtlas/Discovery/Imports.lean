import AddonAtlas.Files.Tree
import AddonAtlas.Settings.Basic

/-!
What import paths refer to.
-/

namespace AddonAtlas

/-- What an import path refers to. -/
inductive ImportKind
  /-- Another package. -/
  | package (name : String)
  | framework
  /-- A source beside the importing one. -/
  | localSource
  deriving DecidableEq, Repr

namespace Import

/-- The text up to the first dot. -/
def head (cs : List Char) : String := String.ofList (cs.takeWhile (· ≠ '.'))

/-- What follows a beginning, if a text has it. -/
def after? (beginning text : String) : Option (List Char) :=
  if beginning.toList.isPrefixOf text.toList then some (text.toList.drop beginning.length) else none

/-- Sort a dotted path. The first addons beginning that fits decides. -/
def classify (s : DiscoverySettings) (path : String) : ImportKind :=
  match s.addonsPrefixes.findSome? fun b => after? b path with
  | some rest => if (head rest).isEmpty then .framework else .package (head rest)
  | none => if s.frameworkPackages.contains (head path.toList) then .framework else .localSource

/-- The sources that a chain of segments pulls in below a directory: a source of the segment's name
ends the walk, the entry point of a directory is taken and the walk goes on below it. -/
def resolveSegments (t : FileTree) (entryPoint : String) : Path → List String → List Path
  | _, [] => []
  | dir, s :: r =>
    if s.isEmpty then []
    else
      let source := dir.join (s ++ ".py")
      let below := dir.join s
      let entry := below.join entryPoint
      if t.isFile source then [source]
      else if t.isFile entry then entry :: resolveSegments t entryPoint below r
      else if t.isDirectory below then resolveSegments t entryPoint below r
      else []

/-- The sources that a local import pulls in, seen from a directory. -/
def resolve (t : FileTree) (entryPoint : String) (dir : Path) (path : String) : List Path :=
  resolveSegments t entryPoint dir
    ((String.ofList (path.toList.dropWhile (· == '.'))).splitOn ".")

end Import

end AddonAtlas
