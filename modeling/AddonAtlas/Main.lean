import AddonAtlas.CommandLine.Run

/-!
The program: commands run on the files of the working directory and on those that they name.
-/

open AddonAtlas AddonAtlas.CommandLine

/-- The place of a path from the top. -/
def placeOf (path : String) : FileTree.Place := (path.splitOn "/").filter fun s => s ≠ ""

/-- What stands at a place. -/
def entryAt (place : FileTree.Place) : IO.FS.DirEntry :=
  { root := "/" ++ "/".intercalate place.dropLast, fileName := place.getLastD "." }

/-- Add what stands at a place to a tree. What cannot be read is left out. -/
partial def collect (t : FileTree) (place : FileTree.Place) : IO FileTree := do
  let path := (entryAt place).path
  if ← path.isDir then
    match ← path.readDir.toBaseIO with
    | .ok entries =>
      entries.foldlM (fun t e => collect t (place ++ [e.fileName])) (t.addDirectory place)
    | .error _ => pure (t.addDirectory place)
  else match ← (IO.FS.readBinFile path).toBaseIO with
    | .ok content => pure (t.addFile place content)
    | .error _ => pure t

/-- Add what a path leads to, and the settings files of the directories above it. -/
def collectPath (t : FileTree) (p : Path) : IO FileTree := do
  match ← (IO.FS.realPath p.text).toBaseIO with
  | .error _ => pure t
  | .ok path =>
    let place := placeOf path.toString
    let above := (FileTree.ancestors place).map fun dir => dir ++ [Settings.fileName]
    above.foldlM collect (← collect t place)

/-- The paths that a scope names. -/
def scopePaths (s : Scope) : List Path :=
  s.roots ++ s.saved.toList ++ s.settings.toList ++ s.states.toList

/-- The paths that a command names. For a file that it writes this is the directory. -/
def commandPaths : Command → List Path
  | .scan s path _ => scopePaths s ++ (path.bind Path.parent?).toList
  | .graph s _ _ | .report s => scopePaths s
  | .newSettings _ => []

/-- Write the files of a tree that differ from those of an older one. -/
def writeChanges (old new : FileTree) : IO Unit :=
  new.files.entries.forM fun (place, content) => do
    if old.files.get? place != some content then
      IO.FS.writeBinFile (entryAt place).path content

def main (words : List String) : IO UInt32 := do
  let here := placeOf (← IO.currentDir).toString
  let files ← match Command.read words with
    | .ok c => (⟨"."⟩ :: commandPaths c).foldlM collectPath { ({} : FileTree) with here }
    | .error _ => pure {}
  let r := run files words
  writeChanges files r.files
  (← IO.getStdout).putStr r.output
  (← IO.getStderr).putStr r.diagnostics
  pure (UInt32.ofNat r.status)
