import AddonAtlas.Discovery.Assets
import AddonAtlas.Entity.Status
import AddonAtlas.Markup.Records

/-!
Reading the data files of a package: tables are counted, markup is read for what it declares.
-/

namespace AddonAtlas

/-- Why a data file cannot be used. -/
inductive DataFileError
  /-- A table that is no text. -/
  | unreadableTable (path : Path)
  /-- A markup file that is no text. -/
  | unreadableMarkup (path : Path)
  /-- A markup file that is not well-formed. -/
  | malformedMarkup (path : Path)
  deriving DecidableEq, Repr

def DataFileError.message : DataFileError → String
  | .unreadableTable p => "failed to read '" ++ p.text ++ "'"
  | .unreadableMarkup p | .malformedMarkup p => "malformed markup '" ++ p.text ++ "'"

/-- The rows of a table, its heading apart: lines that are not blank. -/
def tableRows (text : String) : Nat :=
  ((Text.lines text.toList).filter fun l => !(Text.trim l).isEmpty).length - 1

namespace Site

/-- Read a script that markup names. -/
def readNamedScript (s : Site) (parent : Path) (p : Package) (source : String) : Package :=
  let address := String.ofList (source.toList.dropWhile (· == '/'))
  let file := parent.join address
  if s.files.isFile file && isScript file then s.readScript p file address else p

/-- Add what a markup file declares. -/
def addMarkup (s : Site) (parent : Path) (p : Package) (u : Markup.Unit) : Package :=
  let p := { p with refers := p.refers.union u.refers }
  let p := u.records.foldl Package.mergeRecord p
  u.scripts.foldl (s.readNamedScript parent) p

/-- Read one data file. Files of other kinds are passed over; missing files give a status. -/
def readDataFile (s : Site) (parent : Path) (p : Package) (file : Path) :
    Except DataFileError Package :=
  let extension := file.extension?
  if extension ≠ some "xml" && extension ≠ some "csv" then .ok p
  else if !s.files.isFile file then .ok { p with status := p.status.insert Status.missingFile }
  else
    let p := { p with files := p.files.insert file }
    let text? := s.files.readText? file
    if extension = some "csv" then
      match text? with
      | none => .error (.unreadableTable file)
      | some text => .ok { p with dataCount := p.dataCount + UInt64.ofNat (tableRows text) }
    else match text? with
      | none => .error (.unreadableMarkup file)
      | some text => match Markup.Unit.ofText? p.name text with
        | none => .error (.malformedMarkup file)
        | some u => .ok (s.addMarkup parent p u)

/-- Read the data files that the manifest of a package lists. -/
def readDataFiles (s : Site) (parent : Path) (p : Package) (files : List Path) :
    Except DataFileError Package :=
  files.foldlM (s.readDataFile parent) p

end Site

end AddonAtlas
