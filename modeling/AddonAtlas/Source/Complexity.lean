import AddonAtlas.Source.Tree
import AddonAtlas.Entity.Model

/-!
Measures of a function body: decision points, operators and operands.
-/

namespace AddonAtlas.Source

/-- What a walk through a body has counted. -/
structure Counts where
  branches : Nat := 0
  operators : NameMap Nat := .empty
  operands : NameMap Nat := .empty

namespace Counts

/-- Kinds of nodes that are one decision point each. -/
def isBranch : Kind → Bool
  | .ifStatement | .elifClause | .forStatement | .whileStatement | .exceptClause | .caseClause
  | .withStatement | .conditionalExpression | .booleanOperator | .forInClause | .ifClause => true
  | _ => false

/-- Statements whose `else` is a decision point of its own. -/
def ownsElse : Kind → Bool
  | .forStatement | .whileStatement | .tryStatement => true
  | _ => false

/-- Kinds of nodes whose tokens are operators and whose other parts are operands. -/
def isOperation : Kind → Bool
  | .binaryOperator | .unaryOperator | .notOperator | .booleanOperator | .comparisonOperator
  | .augmentedAssignment => true
  | _ => false

/-- Definitions are measured on their own and not as part of what surrounds them. -/
def isDefinition (k : Kind) : Bool := k == .functionDefinition || k == .classDefinition

def tally (m : NameMap Nat) (s : String) : NameMap Nat := m.insert s (m.getD s 0 + 1)

/-- Count the parts of an operation. -/
def addOperation (c : Counts) (parts : List Tree) : Counts :=
  parts.foldl (fun c t =>
    if t.kind == .comment then c
    else if t.isNamed then { c with operands := tally c.operands t.text }
    else { c with operators := tally c.operators t.text }) c

mutual

/-- Count a node below a node of kind `parent`, and everything below it. -/
def walk (parent : Kind) (c : Counts) : Tree → Counts
  | .node l cs =>
    let branch := isBranch l.kind || (l.kind == .elseClause && ownsElse parent)
    let c := if branch then { c with branches := c.branches + 1 } else c
    let c := if isOperation l.kind then c.addOperation cs else c
    walkAll l.kind c cs

def walkAll (parent : Kind) (c : Counts) : List Tree → Counts
  | [] => c
  | t :: r =>
    if isDefinition t.kind || t.kind == .token then walkAll parent c r
    else walkAll parent (walk parent c t) r

end

def total (m : NameMap Nat) : Nat := m.values.foldl (· + ·) 0

/-- The number of operators and operands times the binary logarithm of the number of different
ones. -/
def volume (c : Counts) : Float :=
  let distinct := c.operators.size + c.operands.size
  if distinct = 0 then 0.0
  else Float.ofNat (total c.operators + total c.operands) * (Float.ofNat distinct).log2

end Counts

/-- The names of the parameters that can be passed by position. -/
def parameterNames : List Tree → List String
  | [] => []
  | t :: r => match t.kind with
    | .identifier => t.text :: parameterNames r
    | .defaultParameter | .typedDefaultParameter =>
      ((t.child? .name).map Tree.text).toList ++ parameterNames r
    | .typedParameter => match t.namedChildren with
      | n :: _ => if n.kind == .identifier then n.text :: parameterNames r else parameterNames r
      | [] => parameterNames r
    | .listSplatPattern | .keywordSeparator => []
    | _ => parameterNames r

/-- A function with its parameters and measures. -/
def functionOf (definition : Tree) : Function :=
  let counts := match definition.child? .body with
    | some body => Counts.walk definition.kind {} body
    | none => {}
  { parameters := match definition.child? .parameters with
      | some p => parameterNames p.children
      | none => []
    complexity := UInt32.ofNat (1 + counts.branches)
    lines := UInt32.ofNat (definition.lastLine - definition.firstLine + 1)
    halstead := counts.volume }

end AddonAtlas.Source
