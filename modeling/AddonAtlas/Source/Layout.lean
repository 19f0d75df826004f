import AddonAtlas.Text.Classes

/-!
Line ends and indentation as tokens.

Whether a line end means anything depends on what the grammar can accept at that point, so a
reading is always told what is expected. A line end where none is expected is blank space; a
smaller margin closes a block, except between brackets.
-/

namespace AddonAtlas.Source

/-- What the grammar can accept next, as far as the layout depends on it. -/
structure Expected where
  newline : Bool := false
  indent : Bool := false
  dedent : Bool := false
  /-- A closing bracket. -/
  closing : Bool := false
  /-- The beginning of a string. -/
  quote : Bool := false
  /-- A handler of a `try` statement. -/
  handler : Bool := false
  deriving Repr

/-- The blank space in front of a token. -/
structure Margin where
  /-- A line end, or the end of the text, was passed. -/
  lineEnd : Bool := false
  /-- The width of the last line's margin. A tab counts eight. -/
  width : Nat := 0
  /-- The width of the margin before the first comment passed. -/
  comment : Option Nat := none
  /-- How many characters were passed. -/
  passed : Nat := 0
  /-- Where the blank space ends. -/
  rest : List Char := []
  /-- Nothing can be told from this margin: a comment ends the line, or a stray backslash stands. -/
  unclear : Bool := false

namespace Margin

def pass (m : Margin) (n : Nat) : Margin := { m with passed := m.passed + n }

/-- Measure the blank space at the front of a text. Comments on lines of their own are passed
over if `comments` is set; `inside` tells that one is being passed over. -/
def measure (comments : Bool) : (inside : Bool) → Margin → List Char → Margin
  | _, m, [] => { m with lineEnd := true, width := 0, rest := [] }
  | true, m, c :: r => measure comments (c ≠ '\n') { m.pass 1 with width := 0 } r
  | false, m, '\n' :: r => measure comments false { m.pass 1 with lineEnd := true, width := 0 } r
  | false, m, ' ' :: r => measure comments false { m.pass 1 with width := m.width + 1 } r
  | false, m, '\t' :: r => measure comments false { m.pass 1 with width := m.width + 8 } r
  | false, m, '\r' :: r => measure comments false { m.pass 1 with width := 0 } r
  | false, m, '\x0c' :: r => measure comments false { m.pass 1 with width := 0 } r
  | false, m, '\\' :: '\n' :: r => measure comments false (m.pass 2) r
  | false, m, '\\' :: '\r' :: '\n' :: r => measure comments false (m.pass 3) r
  | false, m, ['\\'] => { m.pass 1 with lineEnd := true, width := 0, rest := [] }
  | false, m, '\\' :: r => { m with rest := '\\' :: r, unclear := true }
  | false, m, c :: r =>
    if c = '#' && comments then
      if m.lineEnd then
        measure comments true { m.pass 1 with comment := some (m.comment.getD m.width) } r
      else { m with rest := c :: r, unclear := true }
    else { m with rest := c :: r }

def of (comments : Bool) (cs : List Char) : Margin := measure comments false {} cs

end Margin

inductive LayoutToken
  | newline
  | indent (width : Nat)
  | dedent
  deriving Repr, DecidableEq

/-- The layout token in front of a text, if there is one, and after how many characters a string may
begin. `margins` are the widths of the open blocks, innermost first. -/
def LayoutToken.next (e : Expected) (inFormat : Bool) (margins : List Nat) (cs : List Char) :
    Option LayoutToken × Option Nat :=
  let m := Margin.of (e.newline || e.indent || e.dedent || e.handler) cs
  let atQuote := match m.rest with
    | c :: _ => c == '"' || c == '\'' || c == '\x60'
    | [] => false
  let current := margins.headD 0
  if m.unclear then (none, none)
  else
    let opening := if m.comment.isNone && e.quote then some m.passed else none
    if !m.lineEnd then (none, opening)
    else if e.indent && current < m.width then (some (.indent m.width), none)
    else if (e.dedent || (!e.newline && !(e.quote && atQuote) && !e.closing)) &&
        m.width < current && !inFormat && m.comment.all (· < current) then
      (some .dedent, none)
    else if e.newline then (some .newline, none)
    else (none, opening)

end AddonAtlas.Source
