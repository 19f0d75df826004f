import AddonAtlas.Ordered.Set

/-!
Paths as written, and the order of their components.

Two spellings with the same components are one path: empty components and dots other than a
leading one do not count.
-/

namespace AddonAtlas

/-- A path as it is written. -/
structure Path where
  text : String
  deriving DecidableEq, Repr, Inhabited

namespace Path

inductive Component
  | root
  | here
  | up
  | name (s : String)
  deriving DecidableEq, Repr

def Component.text : Component → String
  | .root => "/"
  | .here => "."
  | .up => ".."
  | .name s => s

/-- What stands between the slashes. -/
def segments (p : Path) : List String := (p.text.splitOn "/")

def isAbsolute (p : Path) : Bool := p.text.toList.head? == some '/'

/-- The components that segments stand for, the first one apart. -/
def inner (l : List String) : List Component :=
  l.filterMap fun s =>
    if s = "" || s = "." then none else if s = ".." then some .up else some (.name s)

def components (p : Path) : List Component :=
  match p.segments with
  | [] => []
  | s :: r =>
    if p.isAbsolute then .root :: inner r
    else if s = "." then .here :: inner r
    else inner (s :: r)

/-- The components as keys: the root, a leading dot, steps up and names come in this order. -/
def key (p : Path) : List String :=
  p.components.map fun
    | .root => "0"
    | .here => "1"
    | .up => "2"
    | .name s => "3" ++ s

/-- The last component, if it is a name. -/
def fileName? (p : Path) : Option String :=
  match p.components.getLast? with
  | some (.name s) => some s
  | _ => none

/-- The text of a path without its last component, and without what was written after it. -/
def parent? (p : Path) : Option Path :=
  match p.components.getLast? with
  | none => none
  | some .root => none
  | some last =>
    let cs := p.text.toList.reverse
    let skipped := dropBlanks cs.length cs
    some ⟨String.ofList (dropBlanks cs.length (skipped.drop last.text.length)).reverse⟩
where
  /-- Remove slashes, and dots between them, from the end of a reversed text. -/
  dropBlanks : Nat → List Char → List Char
    | 0, cs => cs
    | n + 1, cs => match cs with
      | ['/'] => ['/']
      | '/' :: r => dropBlanks n r
      | '.' :: '/' :: r => dropBlanks n ('/' :: r)
      | cs => cs

/-- A path below another one. -/
def join (p : Path) (t : String) : Path :=
  if t.toList.head? == some '/' || p.text.isEmpty then ⟨t⟩
  else if p.text.toList.getLast? == some '/' then ⟨p.text ++ t⟩
  else ⟨p.text ++ "/" ++ t⟩

/-- What follows the last dot of the file name, if something precedes it. -/
def extension? (p : Path) : Option String :=
  p.fileName?.bind fun n =>
    let tail := n.toList.reverse.takeWhile (· ≠ '.')
    if tail.length + 1 < n.length then some (String.ofList tail.reverse) else none

/-- Segments without the first `n` that are components. -/
def dropComponents : (n : Nat) → (first : Bool) → List String → List String
  | 0, _, l => l
  | _, _, [] => []
  | n + 1, true, _ :: r => dropComponents n false r
  | n + 1, false, s :: r =>
    if s = "" || s = "." then dropComponents (n + 1) false r else dropComponents n false r

def isFiller (s : String) : Bool := s = "" || s = "."

/-- What is written below a base, if the path lies there; the base itself leaves nothing. -/
def below? (p base : Path) : Option Path :=
  let bs := base.components
  if bs.isPrefixOf p.components then
    let l := dropComponents bs.length true p.segments
    let l := if bs.isEmpty then l else l.dropWhile isFiller
    let kept := (l.reverse.dropWhile isFiller).reverse
    -- with nothing taken away, the root and a lone dot stay
    if bs.isEmpty && kept.isEmpty then
      some ⟨if p.isAbsolute then "/" else if p.text.isEmpty then "" else "."⟩
    else some ⟨"/".intercalate kept⟩
  else none

end Path

/-- A set of paths: of several spellings the first one put in stays. -/
abbrev PathSet := OrdMap (List String) Path

namespace PathSet

def contains (s : PathSet) (p : Path) : Bool := OrdMap.contains s p.key

def insert (s : PathSet) (p : Path) : PathSet := s.insertIfNew p.key p

def insertMany (s : PathSet) (l : List Path) : PathSet := l.foldl insert s

def ofList (l : List Path) : PathSet := insertMany .empty l

def union (s t : PathSet) : PathSet := insertMany s t.values

def paths (s : PathSet) : List Path := s.values

end PathSet

end AddonAtlas
