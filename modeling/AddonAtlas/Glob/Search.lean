import AddonAtlas.Files.Tree
import AddonAtlas.Glob.Component

/-!
The paths of a tree of files that a path glob matches, in alphabetical order.
-/

namespace AddonAtlas.PathGlob

/-- Whether a path is written as the directory where the search begins. -/
def isHere (p : Path) : Bool := p.key = (Path.mk ".").key

/-- A path in a directory. -/
def child (dir : Path) (name : String) : Path := if isHere dir then ⟨name⟩ else dir.join name

/-- A search: the files, and whether only directories are wanted. -/
structure Search where
  tree : FileTree
  directoriesOnly : Bool

namespace Search

/-- A path that all patterns have matched. -/
def found (s : Search) (p : Path) : List Path :=
  if s.directoriesOnly && !s.tree.isDirectory p then [] else [p]

mutual

/-- The matches below a directory, for what is left of the pattern. Components without special
characters are looked up; the directory itself and the one above it are matched only by patterns
that begin with a dot. -/
def below (s : Search) : (fuel : Nat) → List Component → Path → List Path
  | 0, _, _ => []
  | _, [], _ => []
  | n + 1, c :: rest, dir =>
    let reached (p : Path) : List Path := if rest.isEmpty then s.found p else s.below n rest p
    match c.text? with
    | some name =>
      let p := child dir name
      let present :=
        if name = "." || name = ".." then s.tree.isDirectory dir else s.tree.hasNode p
      if present then reached p else []
    | none => match s.tree.isDirectory dir, s.tree.list? dir with
      | true, some names =>
        let special := if c.startsWithDot then ["..", "."].filter c.matchesName else []
        special.flatMap (fun name => reached (dir.join name)) ++
          names.flatMap fun name => s.visit n c rest (child dir name)
      | _, _ => []

/-- The matches at a path and below it, for a pattern that its name may match. -/
def visit (s : Search) : (fuel : Nat) → Component → List Component → Path → List Path
  | 0, _, _, _ => []
  | n + 1, .deep, rest, p =>
    let rest := rest.dropWhile Component.isDeep
    let further := if s.tree.isDirectory p then s.below n (.deep :: rest) p else []
    match rest with
    | [] => (if s.tree.isDirectory p then [p] else []) ++ further
    | c :: rest => s.matched n c rest p ++ further
  | n + 1, c, rest, p => s.matched n c rest p

/-- The matches that begin with the name of a path. -/
def matched (s : Search) : (fuel : Nat) → Component → List Component → Path → List Path
  | 0, _, _, _ => []
  | n + 1, c, rest, p =>
    if p.fileName?.any c.matchesName then
      if rest.isEmpty then s.found p else s.below n rest p
    else []

end

end Search

/-- The components of a pattern; a slash at the end adds none. -/
def parts (pattern : String) : List String :=
  match (pattern.splitOn "/").reverse with
  | "" :: before => if before.isEmpty then [""] else before.reverse
  | l => l.reverse

/-- Where the search for a pattern begins, and what is left of the pattern from there: the slash at
the front of an absolute one is the top. -/
def scope (pattern : String) : Path × String :=
  match pattern.toList with
  | '/' :: r => (⟨"/"⟩, String.ofList r)
  | _ => (⟨"."⟩, pattern)

/-- The paths that match a pattern; none if the pattern is malformed. -/
def search? (t : FileTree) (pattern : String) : Option (List Path) := do
  let (dir, rest) := scope pattern
  let components ← (parts rest).mapM Component.parse?
  let s : Search := ⟨t, pattern.toList.getLast? == some '/'⟩
  some (s.below (4 * (components.length + 1) * (t.directories.size + 2)) components dir)

end AddonAtlas.PathGlob
