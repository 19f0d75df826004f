import AddonAtlas.Source.Tree
import AddonAtlas.Json.Write
import AddonAtlas.Decimal.Read

/-!
Literal expressions as values.

Strings, numbers, containers, signs and brackets have a value; everything else is refused, so
nothing is ever executed.
-/

namespace AddonAtlas.Source

open AddonAtlas.Text

/-- Why an expression has no literal value. Lines count from one. -/
inductive LiteralError
  | unsupported (kind : Kind) (line : Nat)
  | interpolation (line : Nat)
  | number (text : String)
  | empty
  | trailing (line : Nat)
  deriving DecidableEq, Repr

def LiteralError.message : LiteralError → String
  | .unsupported k n => "`" ++ k.name ++ "` is not a literal (line " ++ toString n ++ ")"
  | .interpolation n => "formatted string is not a literal (line " ++ toString n ++ ")"
  | .number t => "invalid number `" ++ t ++ "`"
  | .empty => "empty module"
  | .trailing n => "unexpected statement after the literal (line " ++ toString n ++ ")"

namespace Literal

def unsupported (l : Label) : LiteralError := .unsupported l.kind (l.firstLine + 1)

/-- The largest integer that is kept as one. -/
def largest : Nat := UInt64.size / 2 - 1

/-- The value of digits of a base, if they are digits of it and the value is small enough. -/
def basedInteger? (base : Nat) (ds : List Char) : Option Int :=
  if ds.isEmpty || !ds.all (fun c => digitValue c < base) then none
  else
    let n := ofDigits base ds
    if n ≤ largest then some n else none

/-- A finite float. -/
def finite? (x : Float) : Option Value := if x.isFinite then some (.float x) else none

def withoutUnderscores (cs : List Char) : List Char := cs.filter (· ≠ '_')

/-- The value of a float token. -/
def float (text : String) : Except LiteralError Value :=
  match (Decimal.readFloat? (withoutUnderscores text.toList)).bind finite? with
  | some v => .ok v
  | none => .error (.number text)

/-- The value of an integer token: an integer if it is small enough, else a float if it is written
in decimal. -/
def integer (text : String) : Except LiteralError Value :=
  let trimmed := (text.toList.reverse.dropWhile fun c => c == 'l' || c == 'L').reverse
  let clean := withoutUnderscores trimmed
  let parsed := match clean with
    | '0' :: c :: r =>
      if c = 'x' || c = 'X' then basedInteger? 16 r
      else if c = 'o' || c = 'O' then basedInteger? 8 r
      else if c = 'b' || c = 'B' then basedInteger? 2 r
      else basedInteger? 10 clean
    | _ => basedInteger? 10 clean
  match parsed with
  | some n => .ok (.int n)
  | none => match (Decimal.readFloat? clean).bind finite? with
    | some v => .ok v
    | none => .error (.number text)

/-- The value with the opposite sign, if the value is a number. -/
def negate? : Value → Option Value
  | .int n => some (.int (-n))
  | .float x => some (.float (-x))
  | _ => none

/-- The character of a code point, if it is one. -/
def charOf? (n : Nat) : Option Char :=
  if n < 0xD800 || (0xDFFF < n && n < 0x110000) then some (Char.ofNat n) else none

/-- What an escape stands for. An escape that stands for nothing is kept as written. -/
def unescape (escape : String) : String :=
  let code (base : Nat) (ds : List Char) : String :=
    if ds.isEmpty || !ds.all (fun c => digitValue c < base) then escape
    else match charOf? (ofDigits base ds) with
      | some c => String.singleton c
      | none => escape
  match escape.toList with
  | ['\\', 'n'] => "\n"
  | ['\\', 't'] => "\t"
  | ['\\', 'r'] => "\r"
  | ['\\', '\\'] => "\\"
  | ['\\', '\''] => "'"
  | ['\\', '"'] => "\""
  | ['\\', 'a'] => "\x07"
  | ['\\', 'b'] => "\x08"
  | ['\\', 'f'] => "\x0c"
  | ['\\', 'v'] => "\x0b"
  | '\\' :: '\n' :: _ => ""
  | '\\' :: c :: r =>
    if c = 'x' || c = 'u' || c = 'U' then code 16 r
    else if '0' ≤ c && c ≤ '7' then code 8 (c :: r)
    else escape
  | _ => escape

/-- The text of one piece of the content of a string. -/
def piece (t : Tree) : String :=
  match t.kind with
  | .escapeSequence => unescape t.text
  | .escapeInterpolation => String.ofList (t.text.toList.take 1)
  | _ => t.text

/-- Whether the opening of a string makes it a raw one. -/
def isRaw (opening : String) : Bool :=
  (opening.toList.takeWhile fun c => c ≠ '"' && c ≠ '\'').any fun c => c == 'r' || c == 'R'

/-- The text of a string, from its parts. -/
def stringParts : (raw : Bool) → List Tree → Except LiteralError String
  | _, [] => .ok ""
  | raw, t :: r => match t.kind with
    | .stringStart => stringParts (isRaw t.text) r
    | .stringContent => do
      let rest ← stringParts raw r
      pure ((if raw then t.text else String.join (t.children.map piece)) ++ rest)
    | .escapeSequence => do
      let rest ← stringParts raw r
      pure (unescape t.text ++ rest)
    | .interpolation => .error (.interpolation (t.firstLine + 1))
    | _ => stringParts raw r

/-- The text of a string node. -/
def stringValue (t : Tree) : Except LiteralError String := stringParts false t.children

/-- The text of adjacent strings. -/
def stringValues : List Tree → Except LiteralError String
  | [] => .ok ""
  | t :: r =>
    if t.kind == .string then do
      let s ← stringValue t
      pure (s ++ (← stringValues r))
    else stringValues r

/-- The key that a value stands for in a mapping. -/
def keyText : Value → String
  | .text s => s
  | v => Json.compact v

mutual

/-- The value of a literal expression. -/
def evaluate : Tree → Except LiteralError Value
  | .node l cs => match l.kind with
    | .dictionary => return .object (← entries cs [])
    | .list | .tuple | .set => return .list (← items cs)
    | .string => return .text (← stringParts false cs)
    | .concatenatedString => return .text (← stringValues cs)
    | .integer => integer l.text
    | .float => float l.text
    | .trueLiteral => .ok (.bool true)
    | .falseLiteral => .ok (.bool false)
    | .noneLiteral => .ok .null
    | .parenthesizedExpression => (first cs).getD (.error (unsupported l))
    | .unaryOperator =>
      match playing .argument cs with
      | none => .error (unsupported l)
      | some r => do
        let v ← r
        let operator := ((cs.find? fun c => c.role == some .operator).map Tree.text).getD ""
        match operator, v with
        | "+", .int n => .ok (.int n)
        | "+", .float x => .ok (.float x)
        | "-", v => match negate? v with
          | some w => .ok w
          | none => .error (unsupported l)
        | _, _ => .error (unsupported l)
    | _ => .error (unsupported l)

/-- The values of all parts. -/
def items : List Tree → Except LiteralError (List Value)
  | [] => .ok []
  | t :: r =>
    if t.isNamed && t.kind != .comment then do
      let v ← evaluate t
      pure (v :: (← items r))
    else items r

/-- The value of the first part. -/
def first : List Tree → Option (Except LiteralError Value)
  | [] => none
  | t :: r => if t.isNamed && t.kind != .comment then some (evaluate t) else first r

/-- The value of the part that plays a role. -/
def playing (role : Role) : List Tree → Option (Except LiteralError Value)
  | [] => none
  | t :: r => if t.role == some role then some (evaluate t) else playing role r

/-- The fields that the pairs of a dictionary write; of equal keys the last one counts. -/
def entries : List Tree → List (String × Value) → Except LiteralError (List (String × Value))
  | [], fields => .ok fields
  | .node l cs :: r, fields => match l.kind with
    | .comment | .token => entries r fields
    | .pair =>
      match playing .key cs, playing .value cs with
      | some k, some v => do
        let k ← k
        let v ← v
        entries r (Value.putField (keyText k) v fields)
      | _, _ => .error (unsupported l)
    | _ => .error (unsupported l)

end

/-- The value of a module that consists of one expression. -/
def evaluateModule (root : Tree) : Except LiteralError Value :=
  match root.parts with
  | [] => .error .empty
  | statement :: rest => match rest with
    | extra :: _ => .error (.trailing (extra.firstLine + 1))
    | [] =>
      if statement.kind == .expressionStatement then
        match statement.namedChildren with
        | [] => .error .empty
        | e :: _ => evaluate e
      else .error (unsupported statement.label)

end Literal

end AddonAtlas.Source
