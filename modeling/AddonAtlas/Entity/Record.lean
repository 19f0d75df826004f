import AddonAtlas.Ordered.Set
import AddonAtlas.Word

/-!
Records and views that markup declares.
-/

namespace AddonAtlas

/-- A record or, if `view` is set, a view or template. -/
structure Record where
  name : String
  inherit : Option String := none
  /-- The views it calls. -/
  calls : NameSet := .empty
  model : Option String := none
  complexity : UInt64 := 0
  lines : UInt64 := 0
  view : Bool := false

namespace Record

/-- The name of an identifier inside a package: identifiers with a dot name their package
themselves. -/
def qualify (name package : String) : String :=
  if name.toList.contains '.' then name else package ++ "." ++ name

/-- What follows the last dot. -/
def localPart (name : String) : String :=
  String.ofList (name.toList.reverse.takeWhile (· ≠ '.')).reverse

/-- A name for a record without one, after what it extends. -/
def syntheticName (inherit package : String) : String := package ++ "." ++ localPart inherit

/-- Add another declaration of the same record, with the sums of words. Where one of them is too
large, the program stops instead, as `merge?` says. -/
def merge (r other : Record) : Record :=
  if r.name = other.name then
    { r with
      calls := r.calls.union other.calls
      complexity := r.complexity + other.complexity
      lines := r.lines + other.lines }
  else r

/-- Add another declaration of the same record, unless a count gets too large for a word. -/
def merge? (r other : Record) : Option Record :=
  if r.name = other.name then do
    let complexity ← Word.add? r.complexity other.complexity
    let lines ← Word.add? r.lines other.lines
    some { r with calls := r.calls.union other.calls, complexity, lines }
  else some r

/-- Put a record under a name, or add it to the one that stands there. -/
def mergeAt? (m : NameMap Record) (n : String) (r : Record) : Option (NameMap Record) :=
  let merged? := match m.get? n with
    | some old => old.merge? r
    | none => some r
  merged?.map (m.insert n)

def text (r : Record) : String :=
  (if r.view then "<View: " else "<Data: ") ++ r.name ++ ">"

end Record

end AddonAtlas
