import AddonAtlas.Source.Grammar.Strings

/-!
Expressions.

From loose to tight: condition and lambda, `or`, `and`, `not`, comparisons, `|`, `&`, `^`,
shifts, sums, products, signs, power, and what is applied to a primary. Every function of this
module reads one construct and asks `self` for the expressions in it; `expression` ties the
knot.
-/

namespace AddonAtlas.Source.Grammar

open AddonAtlas.Text

open Reading

/-- Whether a character sequence goes on with the sign of a named expression. -/
def beginsNamed (cs : List Char) : Bool :=
  match cs.dropWhile Token.isSpace with
  | ':' :: '=' :: _ => true
  | _ => false

/-- Words that are values or operators where an operand is expected. -/
def operandKeywords : List String := ["not", "lambda", "True", "False", "None"]

/-- Words that go on with an expression and so never begin one after a name that could end it. -/
def infixWords : List String :=
  ["if", "else", "and", "or", "in", "is", "not", "as", "for", "async", "from"]

/-- Whether a token can begin a primary, with its signs. -/
def beginsPrimary (t : Token) : Bool :=
  match t.lexeme with
  | .quote _ | .integer | .float => true
  | .word w => !infixWords.contains w
  | .sign s => ["(", "[", "\x7b", "+", "-", "~", "*", "..."].contains s
  | _ => false

mutual

/-- The kind of pattern that an expression can be reread as, on the left of an assignment. -/
def patternKind? : Tree → Option Kind
  | .node l cs => match l.kind with
    | .identifier | .attribute | .subscript => some l.kind
    | .listSplat | .listSplatPattern =>
      if cs.all fun c => [Kind.comment, .identifier, .attribute, .subscript].contains c.kind then
        some .listSplatPattern
      else none
    | .tuple | .parenthesizedExpression | .tuplePattern =>
      if allPatterns cs then some .tuplePattern else none
    | .list | .listPattern => if allPatterns cs then some .listPattern else none
    | _ => none

def allPatterns : List Tree → Bool
  | [] => true
  | t :: r => (t.kind == .comment || (patternKind? t).isSome) && allPatterns r

end

/-- The pattern that an expression can be reread as. -/
def asPattern? (t : Tree) : Option Tree := (patternKind? t).map t.withKind

/-- One target of an assignment or of a loop. -/
def target (self : Goal → Reading Tree) (f : Follow) : Reading Tree := do
  let t ← self (.primary f)
  match asPattern? t with
  | some p => pure p
  | none => failure

/-- The targets of a loop, up to the keyword `in`. -/
def targets (self : Goal → Reading Tree) : Reading Tree := do
  let start := (← peek .operand).start
  let first ← target self .nothing
  if isSign (← peek {}) "," then
    let children ← loop [first] fun cs => do
      if isSign (← peek {}) "," then
        let comma ← sign {} ","
        if isWord (← peek .operand) "in" then pure (cs ++ comma, false)
        else pure (cs ++ comma ++ (← part (target self .nothing)), true)
      else pure (cs, false)
    node .patternList start children
  else pure first

/-- One `for` of a comprehension. -/
def forInClause (self : Goal → Reading Tree) : Reading Tree := do
  let inside := Follow.bracket.expected
  let start := (← peek inside).start
  let a ← if isWord (← peek inside) "async" then keyword inside "async" else pure []
  let b ← keyword {} "for"
  let _ ← peek .operand
  let left ← partAs .left (targets self)
  let c ← keyword {} "in"
  let _ ← peek .operand
  let first ← part (self (.unconditional .bracket))
  let rest ← loop [] fun cs => do
    if isSign (← peek inside) "," then
      let comma ← sign inside ","
      let t ← peek Follow.bracket.orQuote
      if endsExpressions t || isWord t "for" || isWord t "if" || isWord t "async" then
        pure (cs ++ comma, false)
      else pure (cs ++ comma ++ (← part (self (.unconditional .bracket))), true)
    else pure (cs, false)
  node .forInClause start (a ++ b ++ left ++ c ++ first ++ rest)

/-- Whether a token begins the clauses of a comprehension. -/
def beginsComprehension (t : Token) : Bool := isWord t "for" || isWord t "async"

/-- The clauses of a comprehension: the first is a `for`. -/
def comprehensionClauses (self : Goal → Reading Tree) : Reading (List Tree) := do
  let inside := Follow.bracket.expected
  let first ← part (forInClause self)
  loop first fun cs => do
    let t ← peek inside
    if beginsComprehension t then pure (cs ++ (← part (forInClause self)), true)
    else if isWord t "if" then
      let clause : Reading Tree := do
        let a ← keyword inside "if"
        let _ ← peek .operand
        node .ifClause t.start (a ++ (← part (self (.unconditional .bracket))))
      pure (cs ++ (← part clause), true)
    else pure (cs, false)

/-- A starred expression. -/
def starred (self : Goal → Reading Tree) (s : String) (k : Kind) : Reading Tree := do
  let t ← peek Follow.bracket.orQuote
  let a ← sign Follow.bracket.orQuote s
  let _ ← peek .operand
  node k t.start (a ++ (← part (self (.expression .bracket))))

/-- One element of a collection. -/
def element (self : Goal → Reading Tree) : Reading Tree := do
  let t ← peek Follow.bracket.orQuote
  if isWord t "yield" then yield self .bracket endsExpressions
  else if isSign t "*" then starred self "*" .listSplat
  else self (.expression .bracket)

/-- The elements after the first one, each behind a comma, and a last comma. -/
def moreElements (e : Reading Tree) (close : String) (first : List Tree) :
    Reading (List Tree) := do
  let inside := Follow.bracket.expected
  loop first fun cs => do
    if isSign (← peek inside) "," then
      let comma ← sign inside ","
      if isSign (← peek Follow.bracket.orQuote) close then pure (cs ++ comma, false)
      else pure (cs ++ comma ++ (← part e), true)
    else pure (cs, false)

/-- Round brackets: a tuple, a generator or a parenthesized expression. -/
def roundBrackets (self : Goal → Reading Tree) : Reading Tree := do
  let inside := Follow.bracket.expected
  let start := (← peek .operand).start
  let a ← sign .operand "("
  if isSign (← peek Follow.bracket.orQuote) ")" then
    let z ← sign inside ")"
    node .tuple start (a ++ z)
  else
    let first ← part (element self)
    let t ← peek inside
    if beginsComprehension t then
      let cs ← comprehensionClauses self
      let z ← sign inside ")"
      node .generatorExpression start (a ++ first ++ cs ++ z)
    else if isSign t "," then
      let cs ← moreElements (element self) ")" first
      let z ← sign inside ")"
      node .tuple start (a ++ cs ++ z)
    else
      let z ← sign inside ")"
      node .parenthesizedExpression start (a ++ first ++ z)

/-- Square brackets: a list or a list comprehension. -/
def squareBrackets (self : Goal → Reading Tree) : Reading Tree := do
  let inside := Follow.bracket.expected
  let start := (← peek .operand).start
  let a ← sign .operand "["
  if isSign (← peek Follow.bracket.orQuote) "]" then
    let z ← sign inside "]"
    node .list start (a ++ z)
  else
    let first ← part (element self)
    if beginsComprehension (← peek inside) then
      let cs ← comprehensionClauses self
      let z ← sign inside "]"
      node .listComprehension start (a ++ first ++ cs ++ z)
    else
      let cs ← moreElements (element self) "]" first
      let z ← sign inside "]"
      node .list start (a ++ cs ++ z)

/-- The value of a dictionary entry behind its key. -/
def pairFrom (self : Goal → Reading Tree) (start : Position) (key : Tree) : Reading Tree := do
  let b ← sign Follow.bracket.expected ":"
  let _ ← peek .operand
  let v ← partAs .value (self (.expression .bracket))
  node .pair start (key.withRole .key :: b ++ v)

/-- One entry of a dictionary: a pair or a spread mapping. -/
def entry (self : Goal → Reading Tree) : Reading Tree := do
  let t ← peek Follow.bracket.orQuote
  if isSign t "**" then starred self "**" .dictionarySplat
  else
    let key ← self (.expression .nothing)
    pairFrom self t.start key

/-- Curly brackets: a dictionary, a set or a comprehension of either. -/
def curlyBrackets (self : Goal → Reading Tree) : Reading Tree := do
  let inside := Follow.bracket.expected
  let start := (← peek .operand).start
  let a ← sign .operand "\x7b"
  let t ← peek Follow.bracket.orQuote
  if isSign t "\x7d" || isSign t "," then
    let comma ← if isSign t "," then sign inside "," else pure []
    let z ← sign inside "\x7d"
    node .dictionary start (a ++ comma ++ z)
  else if isSign t "**" then
    let first ← part (starred self "**" .dictionarySplat)
    let cs ← moreElements (entry self) "\x7d" first
    let z ← sign inside "\x7d"
    node .dictionary start (a ++ cs ++ z)
  else
    let before ← comments
    let first ← element self
    if isSign (← peek inside) ":" then
      let p ← pairFrom self t.start first
      if beginsComprehension (← peek inside) then
        let cs ← comprehensionClauses self
        let z ← sign inside "\x7d"
        node .dictionaryComprehension start (a ++ before ++ [p] ++ cs ++ z)
      else
        let cs ← moreElements (entry self) "\x7d" (before ++ [p])
        let z ← sign inside "\x7d"
        node .dictionary start (a ++ cs ++ z)
    else if beginsComprehension (← peek inside) then
      let cs ← comprehensionClauses self
      let z ← sign inside "\x7d"
      node .setComprehension start (a ++ before ++ [first] ++ cs ++ z)
    else
      let cs ← moreElements (element self) "\x7d" (before ++ [first])
      let z ← sign inside "\x7d"
      node .set start (a ++ cs ++ z)

/-- One argument of a call. -/
def argument (self : Goal → Reading Tree) : Reading Tree := do
  let t ← peek Follow.bracket.orQuote
  let named : Reading Tree := do
    match t.lexeme with
    | .word w => if operandKeywords.contains w then failure
    | _ => failure
    let n ← name Follow.bracket.orQuote
    let b ← sign Follow.bracket.expected "="
    let _ ← peek .operand
    let v ← partAs .value (self (.expression .bracket))
    node .keywordArgument t.start (n.withRole .name :: b ++ v)
  if isSign t "*" then starred self "*" .listSplat
  else if isSign t "**" then starred self "**" .dictionarySplat
  else orElse named (self (.expression .bracket))

/-- The arguments of a call in their brackets. A lone comma is let through. -/
def arguments (self : Goal → Reading Tree) (e : Expected) : Reading Tree := do
  let inside := Follow.bracket.expected
  let start := (← peek e).start
  let a ← sign e "("
  let t ← peek Follow.bracket.orQuote
  if isSign t ")" || isSign t "," then
    let comma ← if isSign t "," then sign inside "," else pure []
    let z ← sign inside ")"
    node .argumentList start (a ++ comma ++ z)
  else
    let first ← part (argument self)
    if beginsComprehension (← peek inside) then
      let cs ← comprehensionClauses self
      let z ← sign inside ")"
      node .generatorExpression start (a ++ first ++ cs ++ z)
    else
      let cs ← moreElements (argument self) ")" first
      let z ← sign inside ")"
      node .argumentList start (a ++ cs ++ z)

/-- One index of a subscript: an expression or a slice. -/
def index (self : Goal → Reading Tree) : Reading Tree := do
  let inside := Follow.bracket.expected
  let t ← peek .operand
  let bound : Reading (List Tree) := do
    let t ← peek Follow.bracket.orQuote
    if isSign t "]" || isSign t "," || isSign t ":" then pure []
    else part (self (.expression .bracket))
  let first ← if isSign t ":" then pure [] else part (self (.expression .bracket))
  if isSign (← peek inside) ":" then
    let a ← sign inside ":"
    let b ← bound
    let c ←
      if isSign (← peek inside) ":" then do
        let c ← sign inside ":"
        pure (c ++ (← bound))
      else pure []
    node .slice t.start (first ++ a ++ b ++ c)
  else match first.getLast? with
    | some e => pure e
    | none => failure

/-- What is applied to a primary: attributes, calls and subscripts. -/
def trailers (self : Goal → Reading Tree) (f : Follow) (start : Position) (t : Tree) :
    Reading Tree :=
  loop t fun t => do
    let a ← peek f.expected
    if isSign a "." then
      let cs ← sign f.expected "."
      let _ ← peek {}
      let n ← partAs .attribute (name {})
      return (← node .attribute start (t.withRole .object :: cs ++ n), true)
    else if isSign a "(" then
      let cs ← comments
      let b ← arguments self f.expected
      return (← node .call start (t.withRole .function :: cs ++ [b]), true)
    else if isSign a "[" then
      let cs ← sign f.expected "["
      let _ ← peek .operand
      let first ← part (index self)
      let more ← moreElements (index self) "]" first
      let z ← sign Follow.bracket.expected "]"
      return (← node .subscript start (t.withRole .value :: cs ++ more ++ z), true)
    else return (t, false)

/-- Adjacent string literals make one. -/
def strings (self : Goal → Reading Tree) (f : Follow) : Reading Tree := do
  let t ← peek .operand
  let first ← string self
  let more ← loop [first] fun cs => do
    match (← peek f.orQuote).lexeme with
    | .quote _ => pure (cs ++ (← part (string self)), true)
    | _ => pure (cs, false)
  if more.length ≤ 1 then pure first else node .concatenatedString t.start more

/-- A name, a literal or a bracket. -/
def atom (self : Goal → Reading Tree) (f : Follow) : Reading Tree := do
  let t ← peek .operand
  match t.lexeme with
  | .quote _ => strings self f
  | .integer => leaf .integer
  | .float => leaf .float
  | .word w =>
    if w = "True" then leaf .trueLiteral
    else if w = "False" then leaf .falseLiteral
    else if w = "None" then leaf .noneLiteral
    else if w = "not" || w = "lambda" then failure
    else leaf .identifier
  | .sign s =>
    if s = "(" then roundBrackets self
    else if s = "[" then squareBrackets self
    else if s = "\x7b" then curlyBrackets self
    else if s = "..." then leaf .ellipsis
    else failure
  | _ => failure

/-- Attributes and subscripts of a starred name. -/
def starredTrailers (self : Goal → Reading Tree) (f : Follow) (start : Position) (t : Tree) :
    Reading Tree :=
  loop t fun t => do
    let a ← peek f.expected
    if isSign a "." then
      let cs ← sign f.expected "."
      let _ ← peek {}
      let n ← partAs .attribute (name {})
      return (← node .attribute start (t.withRole .object :: cs ++ n), true)
    else if isSign a "[" then
      let cs ← sign f.expected "["
      let _ ← peek .operand
      let first ← part (index self)
      let more ← moreElements (index self) "]" first
      let z ← sign Follow.bracket.expected "]"
      return (← node .subscript start (t.withRole .value :: cs ++ more ++ z), true)
    else return (t, false)

/-- A primary: an atom, or a starred target, with what is applied to it. -/
def primary (self : Goal → Reading Tree) (f : Follow) : Reading Tree := do
  let t ← peek .operand
  if isSign t "*" then
    let a ← sign .operand "*"
    let s ← peek {}
    let before ← comments
    let n ← name {}
    let n ← starredTrailers self f s.start n
    let splat ← node .listSplat t.start (a ++ before ++ [n])
    trailers self f t.start splat
  else
    let b ← atom self f
    trailers self f t.start b

/-- A primary, perhaps awaited, and its power. -/
def power (self : Goal → Reading Tree) (f : Follow) : Reading Tree := do
  let t ← peek .operand
  let awaited : Reading Tree := do
    let a ← keyword .operand "await"
    if beginsPrimary (← peek f.orQuote) then
      node .await t.start (a ++ (← part (self (.signed f))))
    else failure
  let plain : Reading Tree := do
    let base ← primary self f
    if isSign (← peek f.expected) "**" then
      let cs ← comments
      let o ← operator
      let _ ← peek .operand
      let right ← partAs .right (self (.signed f))
      node .binaryOperator t.start (base.withRole .left :: cs ++ o ++ right)
    else pure base
  if isWord t "await" then orElse awaited plain else plain

/-- An operand with its signs. -/
def signed (self : Goal → Reading Tree) (f : Follow) : Reading Tree := do
  let t ← peek .operand
  if isSign t "+" || isSign t "-" || isSign t "~" then
    let o ← leaf .token
    let _ ← peek .operand
    let x ← partAs .argument (self (.signed f))
    node .unaryOperator t.start (o.withRole .operator :: x)
  else power self f

/-- How tightly a binary operator binds, powers apart. -/
def level (t : Token) : Option Nat :=
  match t.lexeme with
  | .sign "|" => some 1
  | .sign "&" => some 2
  | .sign "^" => some 3
  | .sign "<<" | .sign ">>" => some 4
  | .sign "+" | .sign "-" => some 5
  | .sign "*" | .sign "@" | .sign "/" | .sign "%" | .sign "//" => some 6
  | _ => none

/-- Operands joined by operators that bind at least so tightly, grouped from the left. -/
def binary (self : Goal → Reading Tree) (least : Nat) (f : Follow) : Reading Tree := do
  let start := (← peek .operand).start
  let first ← signed self f
  loop first fun left => do
    match level (← peek f.expected) with
    | none => return (left, false)
    | some n =>
      if n < least then return (left, false)
      let cs ← comments
      let o ← operator
      let _ ← peek .operand
      let right ← partAs .right (self (.binary (n + 1) f))
      return (← node .binaryOperator start (left.withRole .left :: cs ++ o ++ right), true)

def comparisonSigns : List String := ["<", "<=", "==", "!=", ">=", ">", "<>"]

/-- A comparison operator of one or two tokens. -/
def comparisonOperator (t : Token) : Reading (Option (List Tree)) := do
  match t.lexeme with
  | .sign s => if comparisonSigns.contains s then return some (← operator) else return none
  | .word "in" => return some (← operator)
  | .word "not" =>
    let cs ← comments
    let _ ← take
    let _ ← keyword {} "in"
    return some (cs ++ [← node .token t.start []])
  | .word "is" =>
    let cs ← comments
    let _ ← take
    if isWord (← peek .operand) "not" then
      let _ ← keyword {} "not"
    return some (cs ++ [← node .token t.start []])
  | _ => return none

/-- Operands joined by comparison operators, as one node. -/
def comparison (self : Goal → Reading Tree) (f : Follow) : Reading Tree := do
  let start := (← peek .operand).start
  let first ← binary self 1 f
  let parts ← loop [first] fun cs => do
    match ← comparisonOperator (← peek f.expected) with
    | none => return (cs, false)
    | some o =>
      let _ ← peek .operand
      return (cs ++ o ++ (← part (self (.binary 1 f))), true)
  if parts.length ≤ 1 then pure first else node .comparisonOperator start parts

/-- One parameter. Types are read only where a colon does not end the parameters. -/
def parameter (self : Goal → Reading Tree) (type : Reading Tree) (typed : Bool) (f : Follow) :
    Reading Tree := do
  let t ← peek f.expected
  let splat (s : String) (k : Kind) : Reading Tree := do
    let a ← sign f.expected s
    let _ ← peek {}
    let n ← part (target self f)
    node k t.start (a ++ n)
  let base ← match t.lexeme with
    | .word _ => leaf .identifier
    | .sign "*" => do
      let bare ← (do
        let c ← get
        let _ ← take
        let s ← peek f.expected
        set c
        pure (isSign s "," || isSign s ")" || isSign s ":"))
      if bare then leaf .keywordSeparator else splat "*" .listSplatPattern
    | .sign "**" => splat "**" .dictionarySplatPattern
    | .sign "/" => leaf .positionalSeparator
    | .sign "(" => target self f
    | _ => failure
  let isPlain := base.kind == .identifier
  let isSplat := base.kind == .listSplatPattern || base.kind == .dictionarySplatPattern
  let a ← peek f.expected
  if typed && (isPlain || isSplat) && isSign a ":" then
    let cs ← sign f.expected ":"
    let _ ← peek .operand
    let ty ← part type
    if isPlain && isSign (← peek f.expected) "=" then
      let ds ← sign f.expected "="
      let _ ← peek .operand
      let v ← partAs .value (self (.expression f))
      node .typedDefaultParameter t.start (base.withRole .name :: cs ++ ty ++ ds ++ v)
    else node .typedParameter t.start (base :: cs ++ ty)
  else if (isPlain || base.kind == .tuplePattern) && isSign a "=" then
    let ds ← sign f.expected "="
    let _ ← peek .operand
    let v ← partAs .value (self (.expression f))
    node .defaultParameter t.start (base.withRole .name :: ds ++ v)
  else pure base

/-- Parameters up to a closing token, with commas between them and perhaps one at the end. -/
def parameterList (p : Reading Tree) (close : String) (f : Follow) : Reading (List Tree) := do
  let first ← part p
  loop first fun cs => do
    if isSign (← peek f.expected) "," then
      let comma ← sign f.expected ","
      if isSign (← peek f.expected) close then pure (cs ++ comma, false)
      else pure (cs ++ comma ++ (← part p), true)
    else pure (cs, false)

/-- A lambda. -/
def lambda (self : Goal → Reading Tree) (f : Follow) : Reading Tree := do
  let start := (← peek .operand).start
  let a ← keyword .operand "lambda"
  let t ← peek {}
  let ps ←
    if isSign t ":" then pure []
    else part (do
      let ps ← parameterList (parameter self failure false .nothing) ":" .nothing
      return (← node .lambdaParameters t.start ps).withRole .parameters)
  let b ← sign {} ":"
  let _ ← peek .operand
  let body ← partAs .body (self (.expression f))
  node .lambda start (a ++ ps ++ b ++ body)

/-- Operands joined by `and` or by `or`, grouped from the left. -/
def joined (operand : Reading Tree) (w : String) (f : Follow) : Reading Tree := do
  let start := (← peek .operand).start
  let first ← operand
  loop first fun left => do
    if isWord (← peek f.expected) w then
      let cs ← comments
      let o ← operator
      let _ ← peek .operand
      let right ← partAs .right operand
      return (← node .booleanOperator start (left.withRole .left :: cs ++ o ++ right), true)
    else return (left, false)

/-- An operand of a boolean operator: a lambda, a negation, a named expression or a
comparison. -/
def clause (self : Goal → Reading Tree) (f : Follow) : Reading Tree := do
  let t ← peek .operand
  match t.lexeme with
  | .word "lambda" => lambda self f
  | .word "not" =>
    let o ← operator
    let _ ← peek .operand
    let x ← partAs .argument (self (.clause f))
    node .notOperator t.start (o ++ x)
  | .word w =>
    if beginsNamed t.stop.rest && !operandKeywords.contains w then
      let n ← leaf .identifier
      let a ← sign {} ":"
      let b ← sign {} "="
      let _ ← peek .operand
      let v ← partAs .value (joined (joined (self (.clause f)) "and" f) "or" f)
      node .namedExpression t.start (n.withRole .name :: a ++ b ++ v)
    else comparison self f
  | _ => comparison self f

/-- An expression, with a condition at its top if that is allowed. -/
def conditional (self : Goal → Reading Tree) (allowed : Bool) (f : Follow) : Reading Tree := do
  let start := (← peek .operand).start
  let first ← joined (joined (clause self f) "and" f) "or" f
  loop first fun left => do
    let t ← peek f.expected
    if allowed && isWord t "if" then
      let a ← keyword f.expected "if"
      let _ ← peek .operand
      let c ← part (self (.expression .nothing))
      let b ← keyword {} "else"
      let _ ← peek .operand
      let d ← part (self (.expression f))
      return (← node .conditionalExpression start (left :: a ++ c ++ b ++ d), true)
    else if isWord t "as" then
      let a ← keyword f.expected "as"
      let s ← peek .operand
      let target : Reading Tree := do
        let inner ← self (.unconditional f)
        node .asPatternTarget s.start [inner]
      let b ← part target
      return (← node .asPattern start (left :: a ++ b), true)
    else return (left, false)

/-- What a goal reads, given how to read smaller ones. -/
def step (self : Goal → Reading Tree) : Goal → Reading Tree
  | .expression f => conditional self true f
  | .unconditional f => conditional self false f
  | .clause f => clause self f
  | .binary n f => binary self n f
  | .signed f => signed self f
  | .primary f => primary self f
  | .interpolation k => interpolation self k

/-- Read a goal. Each nested expression follows a token of its own, so the length of the text
bounds the nesting. -/
def goal : Nat → Goal → Reading Tree
  | 0, _ => failure
  | n + 1, g => step (goal n) g

end AddonAtlas.Source.Grammar
