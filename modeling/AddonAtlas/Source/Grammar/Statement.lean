import AddonAtlas.Source.Grammar.Simple

/-!
Compound statements, blocks and whole modules.

The grammar is lenient about layout: a block may be empty, a line may stand deeper than its
block without opening a new one, and a line may return to any smaller margin.
-/

namespace AddonAtlas.Source.Grammar

open Reading

/-- Where a statement of a block begins, or the block ends. -/
def Expected.statement : Expected := { dedent := true, quote := true }

/-- Where a handler of a `try` statement must begin. -/
def Expected.onlyHandler : Expected := { handler := true }

/-- Where a handler may begin, or the statement ends. -/
def Expected.moreHandlers : Expected := { dedent := true, quote := true, handler := true }

/-- Where the body of a compound statement begins. -/
def Expected.body : Expected := { newline := true, indent := true, quote := true }

/-- What is read at the level of statements. -/
inductive StatementGoal
  | statement
  | suite
  deriving Repr

variable (self : Goal → Reading Tree) (inner : StatementGoal → Reading (List Tree))

/-- Statements up to the end of their block. -/
def blockStatements : Reading (List Tree) :=
  loop [] fun cs => do
    let t ← peek Expected.statement
    if t.lexeme == .dedent then
      let z ← comments
      let _ ← take
      pure (cs ++ z, false)
    else pure (cs ++ (← inner .statement), true)

/-- The body of a compound statement, behind its colon: an indented block, statements on the same
line, or nothing. -/
def suite : Reading Tree := do
  let t ← peek Expected.body
  match t.lexeme with
  | .newline =>
    let _ ← comments
    let _ ← take
    node .block t.start []
  | .indent _ =>
    let cs ← comments
    let _ ← take
    let start := (← peek Expected.statement).start
    node .block start (cs ++ (← blockStatements inner))
  | _ => node .block t.start (← simpleStatements self)

/-- A colon and the body behind it. -/
def body (e : Expected) : Reading (List Tree) := do
  let a ← sign e ":"
  let _ ← peek Expected.body
  let cs ← comments
  match ← inner .suite with
  | [b] => pure (a ++ cs ++ [b.withRole .body])
  | _ => failure

def elseClause : Reading Tree := do
  let t ← peek Expected.statement
  let a ← keyword Expected.statement "else"
  node .elseClause t.start (a ++ (← body inner {}))

/-- The clause `else`, if it stands there. -/
def optionalElse (e : Expected) : Reading (List Tree) := do
  if isWord (← peek e) "else" then part (elseClause inner) else pure []

/-- A keyword, an expression and a body. -/
def conditionClause (w : String) (k : Kind) (rest : Reading (List Tree)) : Reading Tree := do
  let t ← peek Expected.statement
  let a ← keyword Expected.statement w
  let _ ← peek .operand
  let c ← part (self (.expression .nothing))
  let b ← body inner {}
  node k t.start (a ++ c ++ b ++ (← rest))

def ifStatement : Reading Tree :=
  conditionClause self inner "if" .ifStatement do
    let clauses ← loop [] fun cs => do
      if isWord (← peek Expected.statement) "elif" then
        pure (cs ++ (← part (conditionClause self inner "elif" .elifClause (pure []))), true)
      else pure (cs, false)
    pure (clauses ++ (← optionalElse inner Expected.statement))

def whileStatement : Reading Tree :=
  conditionClause self inner "while" .whileStatement (optionalElse inner Expected.statement)

/-- The keyword `async`, if it stands there. -/
def optionalAsync : Reading (List Tree) := do
  if isWord (← peek .operand) "async" then keyword .operand "async" else pure []

def forStatement : Reading Tree := do
  let start := (← peek .operand).start
  let a ← optionalAsync
  let b ← keyword {} "for"
  let _ ← peek .operand
  let l ← partAs .left (targets self)
  let c ← keyword {} "in"
  let _ ← peek .operand
  let r ← part (expressions self .nothing endsExpressions)
  let d ← body inner {}
  let e ← optionalElse inner Expected.statement
  node .forStatement start (a ++ b ++ l ++ c ++ r ++ d ++ e)

def withStatement : Reading Tree := do
  let start := (← peek .operand).start
  let a ← optionalAsync
  let b ← keyword {} "with"
  let t ← peek .operand
  let item : Reading Tree := do
    let s ← peek .operand
    node .withItem s.start [← self (.expression .nothing)]
  let clause : Reading Tree := do
    let first ← part item
    let items ← loop first fun cs => do
      if isSign (← peek {}) "," then
        let comma ← sign {} ","
        if isSign (← peek .operand) ":" then pure (cs ++ comma, false)
        else pure (cs ++ comma ++ (← part item), true)
      else pure (cs, false)
    node .withClause t.start items
  let c ← part clause
  node .withStatement start (a ++ b ++ c ++ (← body inner {}))

/-- One handler of a `try` statement. A star makes it a handler of groups when it touches the
keyword, and else belongs to the expression. -/
def exceptClause (group : Bool) : Reading Tree := do
  let t ← peek Expected.moreHandlers
  let a ← keyword Expected.moreHandlers "except"
  let a ← if group then do pure (a ++ (← sign .operand "*")) else pure a
  let s ← peek .operand
  let what ←
    if isSign s ":" && !group then pure []
    else do
      let e ← part (self (.expression .nothing))
      let u ← peek {}
      if isWord u "as" then
        let k ← keyword {} "as"
        let _ ← peek .operand
        pure (e ++ k ++ (← part (self (.expression .nothing))))
      else if isSign u "," && !group then
        let k ← sign {} ","
        let _ ← peek .operand
        pure (e ++ k ++ (← part (self (.expression .nothing))))
      else pure e
  let b ← body inner {}
  node (if group then .exceptGroupClause else .exceptClause) t.start (a ++ what ++ b)

def finallyClause : Reading Tree := do
  let t ← peek Expected.moreHandlers
  let a ← keyword Expected.moreHandlers "finally"
  node .finallyClause t.start (a ++ (← body inner {}))

/-- Whether a handler of groups begins at a token. -/
def beginsGroup (t : Token) : Bool := t.stop.rest.head? == some '*'

def tryStatement : Reading Tree := do
  let start := (← peek .operand).start
  let a ← keyword .operand "try"
  let b ← body inner {}
  let t ← peek Expected.onlyHandler
  if isWord t "finally" then
    node .tryStatement start (a ++ b ++ (← part (finallyClause inner)))
  else if isWord t "except" then
    let group := beginsGroup t
    let first ← part (exceptClause self inner group)
    let handlers ← loop first fun cs => do
      let t ← peek Expected.moreHandlers
      if isWord t "except" && beginsGroup t == group then
        pure (cs ++ (← part (exceptClause self inner group)), true)
      else pure (cs, false)
    let e ← optionalElse inner Expected.moreHandlers
    let f ←
      if isWord (← peek Expected.moreHandlers) "finally" then part (finallyClause inner)
      else pure []
    node .tryStatement start (a ++ b ++ handlers ++ e ++ f)
  else failure

def functionDefinition : Reading Tree := do
  let start := (← peek .operand).start
  let a ← optionalAsync
  let b ← keyword {} "def"
  let _ ← peek {}
  let n ← partAs .name (name {})
  let ty ← typeParameters self
  let s ← peek {}
  let parameters : Reading Tree := do
    let x ← sign {} "("
    let p := parameter self (type self .bracket) true .bracket
    let ps ←
      if isSign (← peek Follow.bracket.expected) ")" then pure []
      else parameterList p ")" .bracket
    let z ← sign Follow.bracket.expected ")"
    node .parameters s.start (x ++ ps ++ z)
  let ps ← partAs .parameters parameters
  let r ←
    if isSign (← peek {}) "->" then do
      let x ← sign {} "->"
      let _ ← peek .operand
      pure (x ++ (← part (type self .nothing)))
    else pure []
  node .functionDefinition start (a ++ b ++ n ++ ty ++ ps ++ r ++ (← body inner {}))

def classDefinition : Reading Tree := do
  let start := (← peek .operand).start
  let a ← keyword .operand "class"
  let _ ← peek {}
  let n ← partAs .name (name {})
  let ty ← typeParameters self
  let s ← if isSign (← peek {}) "(" then part (arguments self {}) else pure []
  node .classDefinition start (a ++ n ++ ty ++ s ++ (← body inner {}))

def decoratedDefinition : Reading Tree := do
  let start := (← peek .operand).start
  let one : Reading Tree := do
    let t ← peek .operand
    let a ← sign .operand "@"
    let _ ← peek .operand
    let e ← part (self (.expression .line))
    if (← peek endOfLine).lexeme == .newline then
      let cs ← comments
      let _ ← take
      node .decorator t.start (a ++ e ++ cs)
    else failure
  let first ← part one
  let decorators ← loop first fun cs => do
    if isSign (← peek {}) "@" then pure (cs ++ (← part one), true) else pure (cs, false)
  let t ← peek {}
  let d ← partAs .definition
    (if isWord t "class" then classDefinition self inner else functionDefinition self inner)
  node .decoratedDefinition start (decorators ++ d)

def caseClause : Reading Tree := do
  let t ← peek Expected.statement
  let a ← keyword Expected.statement "case"
  let _ ← peek .operand
  let first ← part (casePattern self)
  let ps ← loop first fun cs => do
    if isSign (← peek {}) "," then
      let comma ← sign {} ","
      let u ← peek .operand
      if isSign u ":" || isWord u "if" then pure (cs ++ comma, false)
      else pure (cs ++ comma ++ (← part (casePattern self)), true)
    else pure (cs, false)
  let u ← peek {}
  let guard ←
    if isWord u "if" then
      part (do
        let x ← keyword {} "if"
        let _ ← peek .operand
        node .ifClause u.start (x ++ (← part (self (.expression .nothing)))))
    else pure []
  node .caseClause t.start (a ++ ps ++ guard ++ (← body inner {}))

def matchStatement : Reading Tree := do
  let start := (← peek .operand).start
  let a ← keyword .operand "match"
  let _ ← peek endOrOperand
  let first ← part (self (.expression .nothing))
  let subjects ← loop first fun cs => do
    if isSign (← peek {}) "," then
      let comma ← sign {} ","
      if isSign (← peek .operand) ":" then pure (cs ++ comma, false)
      else pure (cs ++ comma ++ (← part (self (.expression .nothing))), true)
    else pure (cs, false)
  let c ← sign {} ":"
  let t ← peek { newline := true, indent := true }
  let cs ← comments
  let _ ← take
  let cases ← match t.lexeme with
    | .newline => node .block t.start []
    | .indent _ => do
      let s ← peek { dedent := true }
      let clauses ← loop [] fun cs => do
        if (← peek { dedent := true }).lexeme == .dedent then
          let z ← comments
          let _ ← take
          pure (cs ++ z, false)
        else pure (cs ++ (← part (caseClause self inner)), true)
      node .block s.start clauses
    | _ => failure
  node .matchStatement start (a ++ subjects ++ c ++ cs ++ [cases.withRole .body])

/-- The word behind the token ahead. -/
def wordBehind : Reading String := do
  let c ← get
  let _ ← take
  let t ← peek {}
  set c
  match t.lexeme with
  | .word w => pure w
  | _ => pure ""

/-- One statement, or the simple statements of one line. -/
def statement : Reading (List Tree) := do
  let t ← peek Expected.statement
  let one (p : Reading Tree) : Reading (List Tree) := part p
  let simple := simpleStatements self
  match t.lexeme with
  | .word "if" => one (ifStatement self inner)
  | .word "for" => one (forStatement self inner)
  | .word "while" => one (whileStatement self inner)
  | .word "try" => one (tryStatement self inner)
  | .word "with" => one (withStatement self inner)
  | .word "def" => one (functionDefinition self inner)
  | .word "class" => one (classDefinition self inner)
  | .word "match" => orElse (one (matchStatement self inner)) simple
  | .word "async" =>
    match ← wordBehind with
    | "for" => one (forStatement self inner)
    | "with" => one (withStatement self inner)
    | "def" => one (functionDefinition self inner)
    | _ => simple
  | .sign "@" => one (decoratedDefinition self inner)
  | _ => simple

/-- What is read at the level of statements. Each nested block follows a token of its own, so the
length of the text bounds the nesting. -/
def statementGoal (self : Goal → Reading Tree) : Nat → StatementGoal → Reading (List Tree)
  | 0, _ => failure
  | n + 1, .statement => statement self (statementGoal self n)
  | n + 1, .suite => return [← suite self (statementGoal self n)]

/-- The statements of a whole text. -/
def module : Reading Tree := do
  let size := (← get).size
  let self := goal (size + 2)
  let start := (← get).position
  let children ← loop [] fun cs => do
    let t ← peek Expected.statement
    if t.lexeme == .finish then
      let z ← comments
      let _ ← take
      pure (cs ++ z, false)
    else pure (cs ++ (← statementGoal self (size + 2) .statement), true)
  node .module start children

end Grammar

/-- The syntax tree of a text, none if it has a syntax error. A byte order mark is passed over. -/
def parse (text : String) : Option Tree :=
  let cs := match text.toList with
    | '\ufeff' :: r => r
    | cs => cs
  let cursor : Cursor :=
    ⟨.start cs, [0], false, none, cs.length⟩
  (Grammar.module cursor).map (·.1)

end AddonAtlas.Source
