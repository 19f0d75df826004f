import AddonAtlas.Files.Path

/-!
A file system as a value.

Places in it are lists of names below its top. A path written in a program is followed name by
name, as the operating system does: an absolute path from the top, any other one from the working
directory. Every name but the last must be a directory, and so must the last one if a slash follows
it; a step up from the top stays there.
-/

namespace AddonAtlas

/-- A tree of files. Every directory on the way to a file or to a directory is listed. -/
structure FileTree where
  files : OrdMap (List String) ByteArray := .empty
  directories : OrdSet (List String) := .singleton []
  /-- The place of the working directory. -/
  here : List String := []

namespace FileTree

/-- A place in the tree: names below its top. -/
abbrev Place := List String

inductive Node
  | file (content : ByteArray)
  | directory

def isDirectoryAt (t : FileTree) (p : Place) : Bool := t.directories.contains p

def node? (t : FileTree) (p : Place) : Option Node :=
  if t.isDirectoryAt p then some .directory else (t.files.get? p).map .file

/-- Follow the segments of a path from a directory on. -/
def follow (t : FileTree) : Place → List String → Option Place
  | here, [] => some here
  | here, s :: r =>
    if !t.isDirectoryAt here then none
    else if s = "" || s = "." then follow t here r
    else if s = ".." then follow t here.dropLast r
    else follow t (here ++ [s]) r

/-- The segments that lead from the top to where a path leads: those of the working directory stand
before a path that is not absolute. -/
def fromTop (t : FileTree) (p : Path) : List String :=
  if p.isAbsolute then p.segments else t.here ++ p.segments

/-- The place that a path leads to, whether something is there or not. -/
def place? (t : FileTree) (p : Path) : Option Place :=
  if p.text.isEmpty then none else t.follow [] (t.fromTop p)

def lookup (t : FileTree) (p : Path) : Option Node := (t.place? p).bind t.node?

def isFile (t : FileTree) (p : Path) : Bool :=
  match t.lookup p with
  | some (.file _) => true
  | _ => false

def isDirectory (t : FileTree) (p : Path) : Bool :=
  match t.lookup p with
  | some .directory => true
  | _ => false

def hasNode (t : FileTree) (p : Path) : Bool := (t.lookup p).isSome

def readBytes? (t : FileTree) (p : Path) : Option ByteArray :=
  match t.lookup p with
  | some (.file c) => some c
  | _ => none

/-- The text of a file, if it is there and is valid UTF-8. -/
def readText? (t : FileTree) (p : Path) : Option String :=
  (t.readBytes? p).bind String.fromUTF8?

/-- The names in a directory, in order. -/
def namesAt (t : FileTree) (here : Place) : NameSet :=
  let child (p : Place) : Option String :=
    if p.length = here.length + 1 && here.isPrefixOf p then p.getLast? else none
  .ofList (t.files.keys.filterMap child ++ t.directories.toList.filterMap child)

/-- The names in the directory that a path leads to. -/
def list? (t : FileTree) (p : Path) : Option (List String) :=
  (t.place? p).bind fun here =>
    if t.isDirectoryAt here then some (t.namesAt here).toList else none

/-- All beginnings of a place. -/
def ancestors (p : Place) : List Place := (List.range p.length).map p.take

def addDirectory (t : FileTree) (p : Place) : FileTree :=
  { t with directories := t.directories.insertMany (ancestors p ++ [p]) }

def addFile (t : FileTree) (p : Place) (content : ByteArray) : FileTree :=
  { t with
    files := t.files.insert p content
    directories := t.directories.insertMany (ancestors p) }

/-- Write a file where a path leads to; none if its directory does not exist or the place is a
directory. -/
def write? (t : FileTree) (p : Path) (content : ByteArray) : Option FileTree := do
  let here ← t.place? p
  guard (p.text.toList.getLast? ≠ some '/' && !here.isEmpty)
  guard (t.isDirectoryAt here.dropLast && !t.isDirectoryAt here)
  some (t.addFile here content)

end FileTree

end AddonAtlas
