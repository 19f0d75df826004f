import AddonAtlas.Source.Grammar.Types
import AddonAtlas.Source.Grammar.CasePattern

/-!
Simple statements, which stand on one logical line.
-/

namespace AddonAtlas.Source.Grammar

open AddonAtlas.Text

open Reading

/-- What may stand behind an expression at the end of a statement. -/
def endOfLine : Expected := { newline := true }

/-- What may begin where a statement ends or one more part begins. -/
def endOrOperand : Expected := { newline := true, quote := true }

/-- Whether a token ends a simple statement. -/
def endsStatement (t : Token) : Bool := t.lexeme == .newline || isSign t ";"

def augmentedSigns : List String :=
  ["+=", "-=", "*=", "/=", "@=", "//=", "%=", "**=", ">>=", "<<=", "&=", "^=", "|="]

/-- Expressions of a statement, separated by commas: the parts, whether a comma is among them. -/
def statementItems (self : Goal → Reading Tree) : Reading (List Tree × Bool) := do
  let _ ← peek endOrOperand
  let first ← self (.expression .line)
  loop ([first], false) fun (cs, listed) => do
    if isSign (← peek endOfLine) "," then
      let comma ← sign endOfLine ","
      if endsExpressions (← peek endOrOperand) then pure ((cs ++ comma, true), false)
      else pure ((cs ++ comma ++ (← part (self (.expression .line))), true), true)
    else pure ((cs, listed), false)

/-- The left side of an assignment, reread from expressions. -/
def leftSide (start : Position) (items : List Tree) (listed : Bool) : Reading Tree := do
  let ps ← items.mapM fun t => if t.kind == .comment then pure t else match asPattern? t with
    | some p => pure p
    | none => failure
  match ps with
  | [p] => if listed then node .patternList start ps else pure p
  | _ => node .patternList start ps

/-- An assignment from its left side on, given how to read a right side. -/
def assignmentFrom (self : Goal → Reading Tree) (rightSide : Reading Tree) (start : Position)
    (left : Tree) : Reading Tree := do
  let t ← peek endOfLine
  let right (e : Expected) (s : String) : Reading (List Tree) := do
    let a ← sign e s
    let _ ← peek .operand
    pure (a ++ (← partAs .right rightSide))
  let l := left.withRole .left
  if isSign t "=" then node .assignment start (l :: (← right endOfLine "="))
  else if isSign t ":" then
    let a ← sign endOfLine ":"
    let _ ← peek .operand
    let ty ← part (type self .line)
    let r ← if isSign (← peek endOfLine) "=" then right endOfLine "=" else pure []
    node .assignment start (l :: a ++ ty ++ r)
  else
    let cs ← comments
    let o ← operator
    let _ ← peek .operand
    node .augmentedAssignment start (l :: cs ++ o ++ (← partAs .right rightSide))

/-- Whether a token goes on with an assignment. -/
def assigns (t : Token) : Bool :=
  match t.lexeme with
  | .sign s => s == "=" || s == ":" || augmentedSigns.contains s
  | _ => false

/-- What an assignment assigns: expressions, a `yield` or a further assignment. -/
def rightSide (self : Goal → Reading Tree) : Nat → Reading Tree
  | 0 => failure
  | n + 1 => do
    let t ← peek .operand
    if isWord t "yield" then yield self .line endsExpressions
    else
      let (items, listed) ← statementItems self
      if assigns (← peek endOfLine) then
        let left ← leftSide t.start items listed
        assignmentFrom self (rightSide self n) t.start left
      else match items with
        | [x] => if listed then node .expressionList t.start items else pure x
        | _ => node .expressionList t.start items

/-- An expression, several ones, an assignment or a `yield` as a statement. -/
def expressionStatement (self : Goal → Reading Tree) : Reading Tree := do
  let t ← peek .operand
  if isWord t "yield" then
    let y ← yield self .line endsExpressions
    node .expressionStatement t.start [y]
  else
    let (items, listed) ← statementItems self
    if assigns (← peek endOfLine) then
      let left ← leftSide t.start items listed
      let a ← assignmentFrom self (rightSide self ((← get).size + 1)) t.start left
      node .expressionStatement t.start [a]
    else node .expressionStatement t.start items

/-- An imported name, perhaps with another one for it. -/
def importedName (f : Expected) : Reading Tree := do
  let start := (← peek {}).start
  let n ← dottedName {} f
  if isWord (← peek f) "as" then
    let a ← keyword f "as"
    let _ ← peek {}
    let m ← part (name {})
    node .aliasedImport start (n.withRole .name :: a ++ m)
  else pure n

/-- Imported names, separated by commas. -/
def importedNames (f : Follow) : Reading (List Tree) := do
  let _ ← peek {}
  let first ← partAs .name (importedName f.expected)
  loop first fun cs => do
    if isSign (← peek f.expected) "," then
      let comma ← sign f.expected ","
      match (← peek f.expected).lexeme with
      | .word _ => pure (cs ++ comma ++ (← partAs .name (importedName f.expected)), true)
      | _ => pure (cs ++ comma, false)
    else pure (cs, false)

/-- Imported names, perhaps in brackets. -/
def bracketedNames : Reading (List Tree) := do
  if isSign (← peek {}) "(" then
    let a ← sign {} "("
    let ns ← importedNames .bracket
    let z ← sign Follow.bracket.expected ")"
    pure (a ++ ns ++ z)
  else importedNames .line

/-- The dots and the name of a relative import. Dots count one by one, however they are
grouped. -/
def relativeImport : Reading Tree := do
  let start := (← peek {}).start
  let dots ← loop (0 : Nat) fun n => do
    let t ← peek {}
    if isSign t "." || isSign t "..." then
      let _ ← take
      pure (n + 1, true)
    else pure (n, false)
  if dots = 0 then failure
  let p ← node .importPrefix start []
  match (← peek {}).lexeme with
  | .word "import" => node .relativeImport start [p]
  | .word _ => node .relativeImport start (p :: (← part (dottedName {} {})))
  | _ => failure

/-- An import from a module. -/
def importFrom : Reading Tree := do
  let start := (← peek .operand).start
  let a ← keyword .operand "from"
  let t ← peek {}
  if isWord t "__future__" then
    let b ← keyword {} "__future__"
    let c ← keyword {} "import"
    node .futureImportStatement start (a ++ b ++ c ++ (← bracketedNames))
  else
    let m ← partAs .moduleName
      (if isSign t "." || isSign t "..." then relativeImport else dottedName {} {})
    let c ← keyword {} "import"
    if isSign (← peek {}) "*" then
      let w ← part (leaf .wildcardImport)
      node .importFromStatement start (a ++ m ++ c ++ w)
    else node .importFromStatement start (a ++ m ++ c ++ (← bracketedNames))

def importStatement : Reading Tree := do
  let start := (← peek .operand).start
  let a ← keyword .operand "import"
  node .importStatement start (a ++ (← importedNames .line))

/-- Expressions behind a keyword, separated by commas, perhaps with a comma at the end. -/
def listedArguments (self : Goal → Reading Tree) (first : List Tree) : Reading (List Tree) :=
  loop first fun cs => do
    if isSign (← peek endOfLine) "," then
      let comma ← sign endOfLine ","
      if endsStatement (← peek endOrOperand) then pure (cs ++ comma, false)
      else pure (cs ++ comma ++ (← part (self (.expression .line))), true)
    else pure (cs, false)

/-- A `print` statement. -/
def printStatement (self : Goal → Reading Tree) : Reading Tree := do
  let start := (← peek .operand).start
  let a ← keyword .operand "print"
  let t ← peek endOrOperand
  if isSign t ">>" then
    let redirect : Reading Tree := do
      let b ← sign endOrOperand ">>"
      let _ ← peek .operand
      node .chevron t.start (b ++ (← part (self (.expression .line))))
    let first ← part redirect
    node .printStatement start (a ++ (← listedArguments self first))
  else
    let first ← part (self (.expression .line))
    node .printStatement start (a ++ (← listedArguments self first))

/-- An `exec` statement, which takes a name or a string. -/
def execStatement (self : Goal → Reading Tree) : Reading Tree := do
  let start := (← peek .operand).start
  let a ← keyword .operand "exec"
  let t ← peek endOrOperand
  let code ← match t.lexeme with
    | .quote _ => part (string self)
    | .word w => if infixWords.contains w then failure else part (leaf .identifier)
    | _ => failure
  let scope ←
    if isWord (← peek endOfLine) "in" then do
      let b ← keyword endOfLine "in"
      let _ ← peek .operand
      let first ← part (self (.expression .line))
      let more ← loop first fun cs => do
        if isSign (← peek endOfLine) "," then
          let comma ← sign endOfLine ","
          let _ ← peek .operand
          pure (cs ++ comma ++ (← part (self (.expression .line))), true)
        else pure (cs, false)
      pure (b ++ more)
    else pure []
  node .execStatement start (a ++ code ++ scope)

/-- A statement of a keyword and expressions that may be missing. -/
def keywordStatement (self : Goal → Reading Tree) (w : String) (k : Kind) (optional : Bool) :
    Reading Tree := do
  let start := (← peek .operand).start
  let a ← keyword .operand w
  if optional && endsStatement (← peek endOrOperand) then node k start a
  else
    let _ ← peek .operand
    node k start (a ++ (← part (expressions self .line endsExpressions)))

/-- A `raise` statement: what is raised, further parts, and a cause. -/
def raiseStatement (self : Goal → Reading Tree) : Reading Tree := do
  let start := (← peek .operand).start
  let a ← keyword .operand "raise"
  let t ← peek endOrOperand
  let b ←
    if endsStatement t || isWord t "from" then pure []
    else part (expressions self .line endsExpressions)
  let c ←
    if isWord (← peek endOfLine) "from" then do
      let f ← keyword endOfLine "from"
      let _ ← peek .operand
      pure (f ++ (← part (self (.expression .line))))
    else pure []
  node .raiseStatement start (a ++ b ++ c)

/-- An `assert` statement. -/
def assertStatement (self : Goal → Reading Tree) : Reading Tree := do
  let start := (← peek .operand).start
  let a ← keyword .operand "assert"
  let _ ← peek .operand
  let first ← part (self (.expression .line))
  let more ← loop first fun cs => do
    if isSign (← peek endOfLine) "," then
      let comma ← sign endOfLine ","
      let _ ← peek .operand
      pure (cs ++ comma ++ (← part (self (.expression .line))), true)
    else pure (cs, false)
  node .assertStatement start (a ++ more)

/-- A statement of a keyword and names. -/
def namesStatement (w : String) (k : Kind) : Reading Tree := do
  let start := (← peek .operand).start
  let a ← keyword .operand w
  let _ ← peek {}
  let first ← part (name {})
  let more ← loop first fun cs => do
    if isSign (← peek endOfLine) "," then
      let comma ← sign endOfLine ","
      let _ ← peek {}
      pure (cs ++ comma ++ (← part (name {})), true)
    else pure (cs, false)
  node k start (a ++ more)

/-- A new name for a type. -/
def typeAliasStatement (self : Goal → Reading Tree) : Reading Tree := do
  let start := (← peek .operand).start
  let a ← keyword .operand "type"
  let _ ← peek endOrOperand
  let l ← partAs .left (type self .line)
  let b ← sign {} "="
  let _ ← peek .operand
  node .typeAliasStatement start (a ++ l ++ b ++ (← partAs .right (type self .line)))

/-- A reading that must end the statement. -/
def whole (p : Reading Tree) : Reading Tree := do
  let t ← p
  if endsStatement (← peek endOfLine) then pure t else failure

/-- One simple statement. Words that are also ordinary names begin a statement of their own only
where reading them as names fails or cannot be meant. -/
def simpleStatement (self : Goal → Reading Tree) : Reading Tree := do
  let t ← peek .operand
  let plain := expressionStatement self
  match t.lexeme with
  | .word "import" => importStatement
  | .word "from" => importFrom
  | .word "print" => do
    let c ← get
    let _ ← take
    let redirected := isSign (← peek endOrOperand) ">>"
    set c
    if redirected then printStatement self
    else orElse (whole plain) (printStatement self)
  | .word "exec" => orElse (execStatement self) plain
  | .word "type" => orElse (whole (typeAliasStatement self)) plain
  | .word "assert" => assertStatement self
  | .word "return" => keywordStatement self "return" .returnStatement true
  | .word "del" => keywordStatement self "del" .deleteStatement false
  | .word "raise" => raiseStatement self
  | .word "pass" => leaf .passStatement
  | .word "break" => leaf .breakStatement
  | .word "continue" => leaf .continueStatement
  | .word "global" => namesStatement "global" .globalStatement
  | .word "nonlocal" => namesStatement "nonlocal" .nonlocalStatement
  | _ => plain

/-- The simple statements of one logical line, with its end. -/
def simpleStatements (self : Goal → Reading Tree) : Reading (List Tree) := do
  let first ← part (simpleStatement self)
  let cs ← loop first fun cs => do
    if isSign (← peek endOfLine) ";" then
      let s ← sign endOfLine ";"
      if (← peek endOrOperand).lexeme == .newline then pure (cs ++ s, false)
      else pure (cs ++ s ++ (← part (simpleStatement self)), true)
    else pure (cs, false)
  if (← peek endOfLine).lexeme == .newline then
    let z ← comments
    let _ ← take
    pure (cs ++ z)
  else failure

end AddonAtlas.Source.Grammar
