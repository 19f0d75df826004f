import AddonAtlas.Source.Grammar.Expression

/-!
Types in annotations: expressions, and generic types joined by bars and dots.
-/

namespace AddonAtlas.Source.Grammar

open AddonAtlas.Text

open Reading

/-- A name with type arguments. -/
def genericType (type : Reading Tree) (f : Follow) : Reading Tree := do
  let start := (← peek .operand).start
  let n ← name .operand
  let t ← peek f.expected
  let arguments : Reading Tree := do
    let a ← sign f.expected "["
    let _ ← peek .operand
    let first ← part type
    let more ← moreElements type "]" first
    let z ← sign Follow.bracket.expected "]"
    node .typeParameter t.start (a ++ more ++ z)
  node .genericType start (n :: (← part arguments))

/-- A starred name as a type. -/
def splatType : Reading Tree := do
  let start := (← peek .operand).start
  let a ← operator
  node .splatType start (a ++ (← part (name {})))

/-- What goes on with a type that is not an expression: further alternatives and members. -/
def typeTail (type : Reading Tree) (f : Follow) (start : Position) (t : Tree) : Reading Tree :=
  loop t fun t => do
    let a ← peek f.expected
    if isSign a "|" then
      let o ← sign f.expected "|"
      let _ ← peek .operand
      return (← node .unionType start (t :: o ++ (← part type)), true)
    else if isSign a "." then
      let o ← sign f.expected "."
      return (← node .memberType start (t :: o ++ (← part (name {}))), true)
    else return (t, false)

/-- A type; `bounded` lets a colon and a bound follow. -/
def typeStep (self : Goal → Reading Tree) (inner : Reading Tree) (bounded : Bool) (f : Follow) :
    Reading Tree := do
  let t ← peek .operand
  let generic : Reading Tree := do
    let g ← genericType inner f
    typeTail inner f t.start g
  let splat : Reading Tree := do
    let g ← splatType
    typeTail inner f t.start g
  let special ← match t.lexeme with
    | .word w => if operandKeywords.contains w then pure (self (.expression f))
                 else pure (orElse generic (self (.expression f)))
    | .sign "*" | .sign "**" => pure (orElse splat (self (.expression f)))
    | _ => pure (self (.expression f))
  let x ← special
  let x ← node .type t.start [x]
  if bounded && isSign (← peek f.expected) ":" then
    let o ← sign f.expected ":"
    let _ ← peek .operand
    node .constrainedType t.start (x :: o ++ (← part inner))
  else pure x

/-- Types inside brackets, nested at most so deep. -/
def innerType (self : Goal → Reading Tree) : Nat → Reading Tree
  | 0 => failure
  | n + 1 => fun c => typeStep self (innerType self n) true .bracket c

/-- A type where something may follow it. -/
def type (self : Goal → Reading Tree) (f : Follow) : Reading Tree := do
  typeStep self (innerType self ((← get).size + 1)) false f

/-- Type parameters of a function or a class. -/
def typeParameters (self : Goal → Reading Tree) : Reading (List Tree) := do
  let t ← peek {}
  if isSign t "[" then
    part do
      let inner := innerType self ((← get).size + 1)
      let a ← sign {} "["
      let _ ← peek .operand
      let first ← part inner
      let more ← moreElements inner "]" first
      let z ← sign Follow.bracket.expected "]"
      node .typeParameter t.start (a ++ more ++ z)
  else pure []

end AddonAtlas.Source.Grammar
