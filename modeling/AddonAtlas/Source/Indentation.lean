import AddonAtlas.Text.Lines

/-!
Mending indentation: tabs become blanks, and blank space at line ends goes.
-/

namespace AddonAtlas.Source

open AddonAtlas.Text

/-- The width of the blanks and tabs at the front of a line, a tab reaching to the next multiple of
four. -/
def indentWidth : (width : Nat) → List Char → Nat
  | w, ' ' :: r => indentWidth (w + 1) r
  | w, '\t' :: r => indentWidth (w + (4 - w % 4)) r
  | w, _ => w

/-- One line with its margin in blanks. -/
def fixLine (line : List Char) : List Char :=
  List.replicate (indentWidth 0 line) ' ' ++ trim line ++ ['\n']

def fixIndentation (text : String) : String :=
  String.ofList ((lines text.toList).flatMap fixLine)

end AddonAtlas.Source
