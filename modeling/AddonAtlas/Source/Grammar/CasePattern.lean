import AddonAtlas.Source.Grammar.Expression

/-!
Patterns of the cases of a `match` statement.
-/

namespace AddonAtlas.Source.Grammar

open Reading

/-- Names joined by dots. -/
def dottedName (e : Expected) (f : Expected) : Reading Tree := do
  let start := (← peek e).start
  let first ← name e
  let children ← loop [first] fun cs => do
    if isSign (← peek f) "." then
      let d ← sign f "."
      let _ ← peek {}
      pure (cs ++ d ++ (← part (name {})), true)
    else pure (cs, false)
  node .dottedName start children

/-- Patterns in brackets, separated by commas. -/
def patternsUntil (p : Reading Tree) (close : String) : Reading (List Tree) := do
  let inside := Follow.bracket.expected
  if isSign (← peek Follow.bracket.orQuote) close then
    sign inside close
  else
    let first ← part p
    let more ← moreElements p close first
    let z ← sign inside close
    pure (more ++ z)

/-- A number, perhaps with a sign, and perhaps with an imaginary part. -/
def numberPattern (f : Follow) : Reading Tree := do
  let start := (← peek .operand).start
  let number : Reading (List Tree) := do
    match (← peek {}).lexeme with
    | .integer => part (leaf .integer)
    | .float => part (leaf .float)
    | _ => failure
  let a ← if isSign (← peek .operand) "-" then sign .operand "-" else pure []
  let n ← number
  let t ← peek f.expected
  if isSign t "+" || isSign t "-" then
    let o ← operator
    node .complexPattern start (a ++ n ++ o ++ (← number))
  else match n.getLast? with
    | some x => if a.isEmpty then pure x else node x.kind start []
    | none => failure

/-- A pattern without alternatives. -/
def simplePattern (pattern : Reading Tree) (self : Goal → Reading Tree) (f : Follow) :
    Reading Tree := do
  let t ← peek .operand
  match t.lexeme with
  | .quote _ => strings self f
  | .integer | .float | .sign "-" => numberPattern f
  | .sign "[" =>
    let a ← sign .operand "["
    node .listPattern t.start (a ++ (← patternsUntil pattern "]"))
  | .sign "(" =>
    let a ← sign .operand "("
    node .tuplePattern t.start (a ++ (← patternsUntil pattern ")"))
  | .sign "\x7b" =>
    let a ← sign .operand "\x7b"
    let entry : Reading Tree := do
      let t ← peek Follow.bracket.orQuote
      if isSign t "**" || isSign t "*" then pattern
      else
        let k ← pattern
        let b ← sign {} ":"
        let _ ← peek .operand
        node .pair t.start (k :: b ++ (← part pattern))
    node .dictPattern t.start (a ++ (← patternsUntil entry "\x7d"))
  | .sign "*" | .sign "**" =>
    let a ← sign .operand (if isSign t "*" then "*" else "**")
    let _ ← peek {}
    node .splatPattern t.start (a ++ (← part (name {})))
  | .word w =>
    if w = "True" then leaf .trueLiteral
    else if w = "False" then leaf .falseLiteral
    else if w = "None" then leaf .noneLiteral
    else
      let n ← dottedName .operand f.expected
      if isSign (← peek f.expected) "(" then
        let a ← sign f.expected "("
        node .classPattern t.start (n :: a ++ (← patternsUntil pattern ")"))
      else if n.children.length ≤ 1 && isSign (← peek f.expected) "=" then
        let a ← sign f.expected "="
        let _ ← peek .operand
        node .keywordPattern t.start (n :: a ++ (← part pattern))
      else pure n
  | _ => failure

/-- Alternatives, perhaps with a name for the whole. -/
def casePatternStep (pattern : Reading Tree) (self : Goal → Reading Tree) (f : Follow) :
    Reading Tree := do
  let start := (← peek .operand).start
  let first ← simplePattern pattern self f
  let parts ← loop [first] fun cs => do
    if isSign (← peek f.expected) "|" then
      let o ← sign f.expected "|"
      let _ ← peek .operand
      pure (cs ++ o ++ (← part (simplePattern pattern self f)), true)
    else pure (cs, false)
  let p ← if parts.length ≤ 1 then pure first else node .unionPattern start parts
  if isWord (← peek f.expected) "as" then
    let a ← keyword f.expected "as"
    let _ ← peek {}
    node .asPattern start (p :: a ++ (← part (name {})))
  else pure p

/-- Patterns inside brackets, nested at most so deep. -/
def innerPattern (self : Goal → Reading Tree) : Nat → Reading Tree
  | 0 => failure
  | n + 1 => fun c => casePatternStep (innerPattern self n) self .bracket c

def casePattern (self : Goal → Reading Tree) : Reading Tree := do
  let start := (← peek .operand).start
  let p ← casePatternStep (innerPattern self ((← get).size + 1)) self .nothing
  node .casePattern start [p]

end AddonAtlas.Source.Grammar
