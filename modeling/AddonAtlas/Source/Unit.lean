import AddonAtlas.Source.Grammar.Statement
import AddonAtlas.Source.Declarations
import AddonAtlas.Source.Recovery

/-!
One source file read for its classes and imports, and manifests.
-/

namespace AddonAtlas.Source

/-- The grammar of Python sources, with a parser that finds first faults. Its older revision has
statements for printing and executing. -/
def python (fault? : String → Option Fault := fun _ => none) : GrammarOf Tree where
  tree? := parse
  legacyLine? t :=
    (t.find? fun k => k == .printStatement || k == .execStatement).map fun s => s.firstLine + 1
  fault? := fault?

/-- What one source file holds. -/
structure Unit where
  /-- Classes in file order, by their identifiers. -/
  classes : List (String × Model)
  /-- Dotted paths; relative ones keep their dots. -/
  imports : List String
  status : NameSet

/-- Read a source text, recovering where possible. -/
def Unit.ofText (converter : String → Converted) (text : String)
    (fault? : String → Option Fault := fun _ => none) : Except ParseFailure Unit := do
  let p ← (python fault?).recover converter text
  pure ⟨AddonAtlas.Source.classes p.tree, AddonAtlas.Source.imports p.tree, p.status⟩

/-- Why a manifest cannot be used. -/
inductive ManifestError
  | unreadable
  /-- The text has a syntax error. -/
  | malformed
  | literal (e : LiteralError)
  /-- The value is something else than a mapping. -/
  | kind (v : Value)

/-- The kind of a value in words. -/
def kindOf : Value → String
  | .null => "None"
  | .bool _ => "a boolean"
  | .int _ | .float _ => "a number"
  | .text _ => "a string"
  | .list _ => "a sequence"
  | .object _ => "a mapping"

/-- The message about a manifest at a path. -/
def ManifestError.message (path : String) : ManifestError → String
  | .unreadable => "failed to read " ++ path
  | .malformed => path ++ " is not valid Python"
  | .literal _ => path ++ " is not a literal manifest"
  | .kind v => path ++ " evaluates to " ++ kindOf v ++ ", expected a mapping"

/-- The cause behind the message, if it says more. -/
def ManifestError.cause? : ManifestError → Option String
  | .literal e => some e.message
  | _ => none

/-- The mapping that a manifest writes. -/
def readManifest (text : String) : Except ManifestError (List (String × Value)) :=
  match parse text with
  | none => .error .malformed
  | some t => match Literal.evaluateModule t with
    | .error e => .error (.literal e)
    | .ok (.object fields) => .ok fields
    | .ok v => .error (.kind v)

end AddonAtlas.Source
