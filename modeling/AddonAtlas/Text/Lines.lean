import AddonAtlas.Text.Classes

/-!
Lines and the blank space at their ends.
-/

namespace AddonAtlas.Text

/-- A line without a carriage return at its end. -/
def withoutReturn (line : List Char) : List Char :=
  if line.getLast? = some '\r' then line.dropLast else line

/-- The lines of a text. A line end closes a line, with or without a carriage return before it; text
behind the last line end is a line as it stands. -/
def linesFrom : (line : List Char) → List Char → List (List Char)
  | line, [] => if line.isEmpty then [] else [line.reverse]
  | line, c :: r =>
    if c = '\n' then withoutReturn line.reverse :: linesFrom [] r else linesFrom (c :: line) r

def lines (cs : List Char) : List (List Char) := linesFrom [] cs

def trimStart (cs : List Char) : List Char := cs.dropWhile isBlank

def trimEnd (cs : List Char) : List Char := (cs.reverse.dropWhile isBlank).reverse

/-- A text without blank space at either end. -/
def trim (cs : List Char) : List Char := trimEnd (trimStart cs)

end AddonAtlas.Text
