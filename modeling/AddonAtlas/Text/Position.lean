/-!
Places in a text.
-/

namespace AddonAtlas.Text

/-- A place in a text: what follows it, how many characters and how many line ends precede it. -/
structure Position where
  rest : List Char
  offset : Nat
  line : Nat
  deriving Inhabited

namespace Position

def start (text : List Char) : Position := ⟨text, 0, 0⟩

/-- The place `n` characters on, or the end. -/
def advance (p : Position) : Nat → Position
  | 0 => p
  | n + 1 => match p.rest with
    | [] => p
    | c :: r => advance ⟨r, p.offset + 1, if c = '\n' then p.line + 1 else p.line⟩ n

/-- The place of the first character that fails a test, or the end. -/
def skipWhile (p : Position) (f : Char → Bool) : Position :=
  p.advance (p.rest.takeWhile f).length

/-- The text between two places. -/
def textTo (p q : Position) : String := String.ofList (p.rest.take (q.offset - p.offset))

def peek (p : Position) : Option Char := p.rest.head?

end Position

end AddonAtlas.Text
