import AddonAtlas.Value
import AddonAtlas.Entity.Model
import AddonAtlas.Entity.Record
import AddonAtlas.Entity.ScriptModule
import AddonAtlas.Files.Path
import AddonAtlas.Keywords

/-!
Addon packages and everything read from them.
-/

namespace AddonAtlas

/-- Lines of code in one language, and their share of all lines. -/
structure LanguageShare where
  lines : UInt64
  fraction : Float

/-- One of the ways in which a package relates to others. -/
inductive Relation
  /-- Declared in the manifest. -/
  | depends
  /-- Imported by a source. -/
  | imports
  /-- Named in markup. -/
  | refers
  deriving DecidableEq, Repr

/-- A package and everything read from it. -/
structure Package where
  path : Path
  name : String
  manifest : NameMap Value := .empty
  models : NameMap Model := .empty
  classes : NameMap Model := .empty
  scriptModules : NameMap ScriptModule := .empty
  views : NameMap Record := .empty
  records : NameMap Record := .empty
  depends : NameSet := .empty
  imports : NameSet := .empty
  refers : NameSet := .empty
  /-- The files that were read. -/
  files : PathSet := .empty
  status : NameSet := .empty
  language : NameMap LanguageShare := .empty
  words : NameSet := .empty
  hashsum : String := ""
  dataCount : UInt64 := 0
  durationSeconds : Float := 0.0

/-- A short summary of a package. -/
structure PackageInfo where
  name : String
  modelCount : Nat
  classCount : Nat
  recordCount : Nat
  viewCount : Nat
  depends : Nat

namespace Package

/-- An empty package for a directory, named after it. -/
def ofPath (p : Path) : Package := { path := p, name := p.fileName?.getD p.text }

def text (p : Package) : String := "<Module: " ++ p.name ++ ">"

def relation (p : Package) : Relation → NameSet
  | .depends => p.depends
  | .imports => p.imports
  | .refers => p.refers

/-- The packages it relates to in any of some ways. -/
def related (p : Package) (rs : List Relation) : NameSet :=
  rs.foldl (fun s r => s.union (p.relation r)) .empty

def add (p : Package) (r : Relation) (n : String) : Package :=
  match r with
  | .depends => { p with depends := p.depends.insert n }
  | .imports => { p with imports := p.imports.insert n }
  | .refers => { p with refers := p.refers.insert n }

def info (p : Package) : PackageInfo :=
  { name := p.name
    modelCount := p.models.size
    classCount := p.classes.size
    recordCount := p.records.size
    viewCount := p.views.size
    depends := (p.related [.depends, .imports, .refers]).size }

/-- File a piece of a model under a key. -/
def mergeModel (p : Package) (m : Model) (key : String) : Package :=
  { p with models := p.models.update key fun
      | some old => old.merge m
      | none => m }

/-- Put a record into a map under its own name. -/
def fileRecord (m : NameMap Record) (r : Record) : NameMap Record :=
  m.update r.name fun
    | some old => old.merge r
    | none => r

/-- File a record among the views or among the data records. -/
def mergeRecord (p : Package) (r : Record) : Package :=
  if r.view then { p with views := fileRecord p.views r }
  else { p with records := fileRecord p.records r }

/-- File a record, unless a count gets too large for a word: there the program stops. -/
def mergeRecord? (p : Package) (r : Record) : Option Package :=
  if r.view then (Record.mergeAt? p.views r.name r).map fun m => { p with views := m }
  else (Record.mergeAt? p.records r.name r).map fun m => { p with records := m }

/-- Add a second discovery of the same package. -/
def mergeFrom (p other : Package) : Package :=
  let p := other.models.entries.foldl (fun p e => p.mergeModel e.2 e.1) p
  { p with
    depends := p.depends.union other.depends
    imports := p.imports.union other.imports
    refers := p.refers.union other.refers
    files := PathSet.union p.files other.files }

/-- Add the keywords of a free text. -/
def addKeywords (p : Package) (stopwords : NameSet) (text : String) : Package :=
  { p with words := p.words.union (Keywords.extract stopwords text) }

end Package

end AddonAtlas
