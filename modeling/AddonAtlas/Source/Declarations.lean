import AddonAtlas.Source.Complexity
import AddonAtlas.Source.Literal

/-!
What a source declares: the models of its classes and the modules it imports.
-/

namespace AddonAtlas.Source

/-- A definition without its decorators. -/
def undecorated (t : Tree) : Tree :=
  if t.kind == .decoratedDefinition then (t.child? .definition).getD t else t

/-- A field declared by a call such as `fields.Char(...)`. -/
def fieldOf? (value : Tree) : Option Field := do
  guard (value.kind == .call)
  let function ← value.child? .function
  guard (function.kind == .attribute)
  let receiver ← function.child? .object
  guard (receiver.kind == .identifier && receiver.text == "fields")
  let type ← function.child? .attribute
  some ⟨type.text, some value.text⟩

/-- What an assignment in a class body declares. -/
inductive Declaration
  | name (value : Tree)
  | inherit (value : Tree)
  | inherits (value : Tree)
  | field (name : String) (f : Field)
  | other

/-- Sort an assignment by its target and value. -/
def Declaration.of (target : String) (value : Tree) : Declaration :=
  if target = "_name" then .name value
  else if target = "_inherit" then .inherit value
  else if target = "_inherits" then .inherits value
  else match fieldOf? value with
    | some f => .field target f
    | none => .other

/-- Add the links of a delegation mapping, in the order of its targets. -/
def addDelegations (m : Model) (targets : List (String × Value)) : Model :=
  targets.foldl (fun m (target, field) => match field with
    | .text f =>
      { m with
        fields := m.fields.insert f Field.delegation
        inherits := m.inherits.insert f target }
    | _ => m) m

/-- Add what a declaration says to a model. Values that are no literals say nothing. -/
def declare (m : Model) : Declaration → Model
  | .name value => match Literal.evaluate value with
    | .ok (.text n) => { m with name := some n }
    | _ => m
  | .inherit value =>
    if value.kind == .identifier && value.text == "_name" then
      match m.name with
      | some n => { m with inherit := m.inherit.insert n }
      | none => m
    else match Literal.evaluate value with
      | .ok (.text p) => { m with inherit := m.inherit.insert p }
      | .ok (.list ps) => { m with inherit := m.inherit.insertMany (ps.filterMap Value.text?) }
      | _ => m
  | .inherits value => match Literal.evaluate value with
    | .ok (.object fields) => addDelegations m fields
    | _ => m
  | .field n f => { m with fields := m.fields.insert n f }
  | .other => m

/-- Add an assignment to a single name. -/
def declareAssignment (m : Model) (t : Tree) : Model :=
  match t.child? .left, t.child? .right with
  | some left, some right =>
    if left.kind == .identifier then declare m (Declaration.of left.text right) else m
  | _, _ => m

/-- Add one statement of a class body. -/
def declareStatement (m : Model) (statement : Tree) : Model :=
  let t := undecorated statement
  match t.kind with
  | .expressionStatement =>
    (t.namedChildren.filter fun e => e.kind == .assignment).foldl declareAssignment m
  | .functionDefinition => match t.child? .name with
    | some n => { m with functions := m.functions.insert n.text (functionOf t) }
    | none => m
  | _ => m

/-- The model that a class declares. -/
def classModel (definition : Tree) : Model :=
  match definition.child? .body with
  | some body => (body.namedChildren.foldl declareStatement {}).adoptInheritName
  | none => {}

/-- The classes of a module with their models, in file order. -/
def classes (root : Tree) : List (String × Model) :=
  root.namedChildren.filterMap fun t =>
    let d := undecorated t
    if d.kind == .classDefinition then
      some (((d.child? .name).map Tree.text).getD "", classModel d)
    else none

/-- The name that an import brings in, without the one it is given. -/
def importedName (t : Tree) : String :=
  if t.kind == .aliasedImport then ((t.child? .name).map Tree.text).getD t.text else t.text

/-- The dotted paths that one statement imports. Relative imports keep their dots, so
`from . import models` gives `..models`. -/
def importPaths (statement : Tree) : List String :=
  let names := (statement.children.filter fun c => c.role == some .name).map importedName
  match statement.kind, statement.child? .moduleName with
  | .importFromStatement, some m => names.map fun n => m.text ++ "." ++ n
  | _, _ => names

/-- The dotted paths that a module imports by statements of its own. -/
def imports (root : Tree) : List String :=
  (root.namedChildren.filter fun t =>
    t.kind == .importStatement || t.kind == .importFromStatement).flatMap importPaths

end AddonAtlas.Source
