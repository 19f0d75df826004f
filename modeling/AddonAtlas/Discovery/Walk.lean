import AddonAtlas.Discovery.Assemble

/-!
Finding packages below some directories, level by level.

Only plain folders are searched further: a package, a rejected directory and one that cannot be
assembled all end the search below them.
-/

namespace AddonAtlas.Site

/-- The directories in a directory that are to be searched. -/
def subdirectories (s : Site) (dir : Path) : List Path :=
  let names := ((s.files.list? dir).getD []).filter fun n => !s.discovery.folderBlacklist.contains n
  (names.map dir.join).filter s.files.isDirectory

/-- The package that a directory is, if it is one. -/
def package? (s : Site) (dir : Path) : Option Package :=
  match s.assemble dir with
  | .ok (.package p) => some p
  | _ => none

/-- The directories to search next, below a directory. -/
def next (s : Site) (dir : Path) : List Path :=
  match s.assemble dir with
  | .ok .folder => s.subdirectories dir
  | _ => []

/-- Whether directories of a depth are looked at. -/
def reaches (s : Site) (depth : Nat) : Bool :=
  match s.discovery.maxDepth with
  | some most => depth ≤ most
  | none => true

/-- The packages among directories of one depth, then those below them. At most as many levels are
searched as there is fuel for. -/
def discoverFrom (s : Site) : (fuel depth : Nat) → List Path → List Package
  | 0, _, _ => []
  | n + 1, depth, level =>
    if level.isEmpty || !s.reaches depth then []
    else level.filterMap s.package? ++ discoverFrom s n (depth + 1) (level.flatMap s.next)

/-- All packages below some directories, in the order of their discovery. -/
def discover (s : Site) (roots : List Path) : List Package :=
  s.discoverFrom (s.files.directories.size + 1) 0 roots

end AddonAtlas.Site
