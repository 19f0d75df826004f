import AddonAtlas.Text.Classes

/-!
The module path that the address of an asset stands for.

An address names a package, directories, a static tree of sources or tests, and a place in that
tree; the last static tree in it counts.
-/

namespace AddonAtlas.Script

open AddonAtlas.Text

/-- A static tree of a package. -/
inductive StaticTree
  | sources
  | tests
  deriving DecidableEq, Repr

def StaticTree.directory : StaticTree → String
  | .sources => "/static/src"
  | .tests => "/static/tests"

/-- A static tree at the front of a text, and the place in it with its slash. -/
def treeAt? (cs : List Char) : Option (StaticTree × List Char) :=
  [StaticTree.sources, .tests].findSome? fun t =>
    if (t.directory ++ "/").toList.isPrefixOf cs then some (t, cs.drop t.directory.length) else none

/-- Split a text at its last static tree. -/
def lastTree? : List Char → Option (List Char × StaticTree × List Char)
  | [] => none
  | c :: r => match lastTree? r with
    | some (before, t, place) => some (c :: before, t, place)
    | none => (treeAt? (c :: r)).map fun (t, place) => ([], t, place)

/-- Split a text at its last static tree that has something before it. -/
def split? : List Char → Option (List Char × StaticTree × List Char)
  | [] => none
  | c :: r => (lastTree? r).map fun (before, t, place) => (c :: before, t, place)

/-- Split an address. A slash at its front is no part of the package, unless it must be. -/
def address? (cs : List Char) : Option (List Char × StaticTree × List Char) :=
  match cs with
  | '/' :: r => (split? r).or (split? cs)
  | _ => split? cs

def endsWith (cs : List Char) (tail : String) : Bool := tail.toList.isSuffixOf cs

/-- A place without what follows its last slash, and without that slash. -/
def withoutLast (cs : List Char) : List Char :=
  ((cs.reverse.dropWhile (· ≠ '/')).drop 1).reverse

/-- A place without the name of an index and without an extension. -/
def modulePlace (cs : List Char) : List Char :=
  let cs := if endsWith cs "/index.js" || endsWith cs "/index" then withoutLast cs else cs
  if endsWith cs ".js" then cs.take (cs.length - 3) else cs

/-- The module path of an address; addresses outside static trees stand for themselves. -/
def modulePath (address : String) : String :=
  match address? (address.toList.takeWhile fun c => !isBlank c) with
  | none => address
  | some (package, t, place) =>
    let gap := match t with
      | .sources => ""
      | .tests => "/../tests"
    "@" ++ String.ofList package ++ gap ++ String.ofList (modulePlace place)

end AddonAtlas.Script
