import AddonAtlas.Glob.Match
import AddonAtlas.Text.Lines

/-!
Sets of name globs, written with commas between them.
-/

namespace AddonAtlas

/-- A set of patterns. It matches a name if one of its patterns does. -/
structure GlobSet where
  patterns : List (List Glob.Token)

/-- A pattern that is malformed. -/
structure GlobError where
  pattern : String
  deriving DecidableEq, Repr

def GlobError.message (e : GlobError) : String := "invalid glob '" ++ e.pattern ++ "'"

namespace GlobSet

/-- The patterns that a text names, without blank space around them and without empty ones. -/
def split (text : String) : List String :=
  ((text.splitOn ",").map fun s => String.ofList (Text.trim s.toList)).filter fun s => !s.isEmpty

def parse (text : String) : Except GlobError GlobSet := do
  let patterns ← (split text).mapM fun p => match Glob.parse? p with
    | some ts => .ok ts
    | none => .error (GlobError.mk p)
  pure ⟨patterns⟩

def accepts (g : GlobSet) (name : String) : Bool := g.patterns.any fun ts => Glob.accepts ts name

end GlobSet

end AddonAtlas
