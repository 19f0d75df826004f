import AddonAtlas.Source.Cursor

/-!
String literals, with the expressions interpolated into formatted ones.
-/

namespace AddonAtlas.Source

open AddonAtlas.Text

open Reading

/-- What an expression is read as, and what may follow it. -/
inductive Goal
  /-- Any expression. -/
  | expression (f : Follow)
  /-- An expression without a condition at its top, as in the clauses of comprehensions. -/
  | unconditional (f : Follow)
  /-- An operand of a boolean operator. -/
  | clause (f : Follow)
  /-- An operand of binary operators that bind at least so tightly. -/
  | binary (level : Nat) (f : Follow)
  /-- An operand with its signs. -/
  | signed (f : Follow)
  /-- A name, literal or bracket with what is applied to it. -/
  | primary (f : Follow)
  /-- Brackets in the text of a formatted string. -/
  | interpolation (k : Kind)

namespace Grammar

/-- Move on inside a string, where blank space counts. -/
def passChars (n : Nat) : Reading Unit :=
  modify fun c => { c with position := c.position.advance n, ahead := none }

/-- A node over the next characters. -/
def charsNode (k : Kind) (n : Nat) : Reading Tree := do
  let start := (← get).position
  passChars n
  node k start []

/-- A string being read: its finished children, and the pieces of the current run of content. -/
structure StringState where
  done : List Tree := []
  content : Option (Position × List Tree) := none

namespace StringState

/-- Close the current run of content. -/
def flush (s : StringState) : Reading (List Tree) := do
  match s.content with
  | none => pure s.done
  | some (start, pieces) => pure (s.done ++ [← node .stringContent start pieces])

def push (s : StringState) (start : Position) (piece : Tree) : StringState :=
  match s.content with
  | none => { s with content := some (start, [piece]) }
  | some (b, pieces) => { s with content := some (b, pieces ++ [piece]) }

end StringState

/-- The inside of a string, up to and with its closing quote. -/
def stringInside (self : Goal → Reading Tree) (q : Quote) (children : List Tree) :
    Reading (List Tree) := do
  let s ← loop ({ done := children } : StringState) fun s => do
    let start := (← get).position
    match q.nextPiece start.rest with
    | none => failure
    | some (.plain n) => return (s.push start (← charsNode .token n), true)
    | some (.escape n) => return (s.push start (← charsNode .escapeSequence n), true)
    | some .doubledBrace => return (s.push start (← charsNode .escapeInterpolation 2), true)
    | some .interpolation =>
      let done ← s.flush
      return ({ done := done ++ [← self (.interpolation .interpolation)] }, true)
    | some (.closing n) =>
      let done ← s.flush
      return ({ done := done ++ [← charsNode .stringEnd n] }, false)
  pure s.done

/-- One string literal, at its opening quote. -/
def string (self : Goal → Reading Tree) : Reading Tree := do
  let t ← take
  match t.lexeme with
  | .quote q =>
    modify fun c => { c with inFormat := q.format }
    let children ← stringInside self q [← node .stringStart t.start []]
    modify fun c => { c with inFormat := false }
    node .string t.start children
  | _ => failure

/-- Expressions separated by commas, as one node. -/
def expressions (self : Goal → Reading Tree) (f : Follow) (stops : Token → Bool) :
    Reading Tree := do
  let start := (← peek .operand).start
  let first ← self (.expression f)
  if isSign (← peek f.expected) "," then
    let children ← loop [first] fun cs => do
      if isSign (← peek f.expected) "," then
        let comma ← sign f.expected ","
        if stops (← peek f.orQuote) then pure (cs ++ comma, false)
        else pure (cs ++ comma ++ (← part (self (.expression f))), true)
      else pure (cs, false)
    node .expressionList start children
  else pure first

/-- A `yield` with what it yields. -/
def yield (self : Goal → Reading Tree) (f : Follow) (stops : Token → Bool) : Reading Tree := do
  let start := (← peek .operand).start
  let a ← keyword .operand "yield"
  let t ← peek f.orQuote
  if isWord t "from" then
    let b ← keyword f.orQuote "from"
    let _ ← peek .operand
    node .yield start (a ++ b ++ (← part (self (.expression f))))
  else if stops t then node .yield start a
  else node .yield start (a ++ (← part (expressions self f stops)))

/-- Whether a token ends a list of expressions rather than beginning one more. -/
def endsExpressions (t : Token) : Bool :=
  match t.lexeme with
  | .newline | .dedent | .finish => true
  | .sign s => ["=", ":", ")", "]", "\x7d", ";", ",", "+=", "-=", "*=", "/=", "@=", "//=", "%=",
      "**=", ">>=", "<<=", "&=", "^=", "|="].contains s
  | .word w => w == "from"
  | .conversion => true
  | _ => false

/-- The text after the colon of an interpolation, up to its closing brace. -/
def formatSpecifier (self : Goal → Reading Tree) (start : Position) : Reading Tree := do
  let children ← loop [] fun cs => do
    match (← get).position.rest with
    | [] => failure
    | '\x7d' :: _ => pure (cs, false)
    | '\x7b' :: _ => pure (cs ++ [← self (.interpolation .formatExpression)], true)
    | '\n' :: _ => do passChars 1; pure (cs, true)
    | r =>
      let n := (r.takeWhile fun c => c ≠ '\x7b' && c ≠ '\x7d' && c ≠ '\n').length
      pure (cs ++ [← charsNode .token n], true)
  node .formatSpecifier start children

/-- An interpolation, at its opening brace: an expression, an equals sign, a conversion and a
format, the last three if they are there. -/
def interpolation (self : Goal → Reading Tree) (k : Kind) : Reading Tree := do
  let start := (← get).position
  passChars 1
  let inside := Follow.bracket.expected
  let t ← peek .operand
  let a ←
    if isWord t "yield" then part (yield self .bracket endsExpressions)
    else part (expressions self .bracket endsExpressions)
  let b ← if isSign (← peek inside) "=" then sign inside "=" else pure []
  let c ← match (← peek inside).lexeme with
    | .conversion => part (leaf .typeConversion)
    | _ => pure []
  let t ← peek inside
  let d ←
    if isSign t ":" then do
      let cs ← sign inside ":"
      pure (cs ++ [← formatSpecifier self t.start])
    else pure []
  let e ← sign inside "\x7d"
  node k start (a ++ b ++ c ++ d ++ e)

end Grammar

end AddonAtlas.Source
