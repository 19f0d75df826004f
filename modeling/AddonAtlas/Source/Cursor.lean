import AddonAtlas.Source.Lexeme

/-!
Reading a source token by token.

A cursor stands behind the last token taken. The token ahead is read once, when it is first
looked at, with what the grammar expected at that moment; comments in front of it wait there
until a construct takes them as its own.
-/

namespace AddonAtlas.Source

open AddonAtlas.Text

structure Cursor where
  position : Position
  /-- The widths of the open blocks, innermost first. -/
  margins : List Nat
  /-- The innermost open string is a formatted one. -/
  inFormat : Bool
  ahead : Option Token
  /-- The length of the whole text, which bounds every repetition. -/
  size : Nat

/-- A step that reads on or gives up. -/
abbrev Reading := StateT Cursor Option

/-- What may follow a construct: the end of the line, or a closing bracket. -/
structure Follow where
  newline : Bool := false
  closing : Bool := false

namespace Follow

/-- In the middle of a construct. -/
def nothing : Follow := {}

/-- At the end of a logical line. -/
def line : Follow := { newline := true }

/-- Inside brackets. -/
def bracket : Follow := { closing := true }

def expected (f : Follow) : Expected := { newline := f.newline, closing := f.closing }

def orQuote (f : Follow) : Expected := { f.expected with quote := true }

end Follow

/-- Where an operand begins. -/
def Expected.operand : Expected := { quote := true }

namespace Reading

def peek (e : Expected) : Reading Token := do
  let c ← get
  match c.ahead with
  | some t => pure t
  | none =>
    let t := Token.next e c.inFormat c.margins (c.size + 1) [] c.position
    set { c with ahead := some t }
    pure t

/-- Take the token ahead. -/
def take : Reading Token := do
  let c ← get
  match c.ahead with
  | none => failure
  | some t =>
    let margins := match t.lexeme with
      | .indent w => w :: c.margins
      | .dedent => c.margins.drop 1
      | _ => c.margins
    set { c with position := t.stop, margins := margins, ahead := none }
    pure t

/-- Take the comments in front of the token ahead. -/
def comments : Reading (List Tree) := do
  let c ← get
  match c.ahead with
  | none => pure []
  | some t =>
    set { c with ahead := some { t with comments := [] } }
    pure (t.comments.map Comment.tree)

/-- A node from a place to the end of the last token taken. -/
def node (k : Kind) (start : Position) (children : List Tree) : Reading Tree := do
  let stop := (← get).position
  pure (.node ⟨k, none, start.line, stop.line, start.textTo stop⟩ children)

/-- Take the token ahead as a node without children. -/
def leaf (k : Kind) : Reading Tree := do
  let t ← take
  node k t.start []

/-- Read a part, behind the comments in front of it. -/
def part (p : Reading Tree) : Reading (List Tree) := do
  let cs ← comments
  let t ← p
  pure (cs ++ [t])

/-- Read a part that plays a role. -/
def partAs (r : Role) (p : Reading Tree) : Reading (List Tree) :=
  part (return (← p).withRole r)

def isSign (t : Token) (s : String) : Bool := t.lexeme == .sign s

def isWord (t : Token) (w : String) : Bool := t.lexeme == .word w

/-- Take a delimiter, leaving the comments in front of it. -/
def sign (e : Expected) (s : String) : Reading (List Tree) := do
  let t ← peek e
  if isSign t s then
    let cs ← comments
    let _ ← take
    pure cs
  else failure

/-- Take a keyword, leaving the comments in front of it. -/
def keyword (e : Expected) (w : String) : Reading (List Tree) := do
  let t ← peek e
  if isWord t w then
    let cs ← comments
    let _ ← take
    pure cs
  else failure

/-- Take the token ahead as an operator of the node being read. -/
def operator : Reading (List Tree) := part (leaf .token)

/-- Any word as an identifier. -/
def name (e : Expected) : Reading Tree := do
  match (← peek e).lexeme with
  | .word _ => leaf .identifier
  | _ => failure

/-- Repeat a step until it says to stop. -/
def iterate (step : α → Reading (α × Bool)) : Nat → α → Reading α
  | 0, _ => failure
  | n + 1, a => do
    let (b, more) ← step a
    if more then iterate step n b else pure b

/-- Repeat a step; each round takes a token, so the length of the text bounds the rounds. -/
def loop (a : α) (step : α → Reading (α × Bool)) : Reading α := do
  iterate step ((← get).size + 2) a

/-- Try a reading, and another one from the same place if it gives up. -/
def orElse (p q : Reading α) : Reading α := fun c =>
  match p c with
  | some r => some r
  | none => q c

end Reading

end AddonAtlas.Source
