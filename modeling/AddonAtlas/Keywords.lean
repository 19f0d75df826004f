import AddonAtlas.Text.Classes
import AddonAtlas.Ordered.Set

/-!
Keywords of free texts.

A keyword is a whole run of word characters that consists of at least two ASCII letters.
-/

namespace AddonAtlas.Keywords

open AddonAtlas.Text

/-- The maximal runs of word characters. -/
def runsFrom : (run : List Char) → List Char → List (List Char)
  | run, [] => if run.isEmpty then [] else [run.reverse]
  | run, c :: r =>
    if isWord c then runsFrom (c :: run) r
    else if run.isEmpty then runsFrom [] r
    else run.reverse :: runsFrom [] r

def runs (cs : List Char) : List (List Char) := runsFrom [] cs

def isKeyword (run : List Char) : Bool := 2 ≤ run.length && run.all Char.isAlpha

/-- The keywords of a text in lower case, without stopwords. -/
def extract (stopwords : NameSet) (text : String) : NameSet :=
  let words := ((runs text.toList).filter isKeyword).map fun w =>
    String.ofList (w.map Char.toLower)
  .ofList (words.filter fun w => !stopwords.contains w)

end AddonAtlas.Keywords
