import AddonAtlas.Value
import AddonAtlas.Decimal.Shortest

/-!
Values as JSON text, on one line or indented.
-/

namespace AddonAtlas.Json

/-- Four hexadecimal digits. -/
def hex4 (n : Nat) : List Char :=
  [n / 4096, n / 256 % 16, n / 16 % 16, n % 16].map Nat.digitChar

/-- One character inside a string: quotes, backslashes and control characters are escaped. -/
def escape (c : Char) : List Char :=
  if c = '"' then ['\\', '"']
  else if c = '\\' then ['\\', '\\']
  else if c = '\n' then ['\\', 'n']
  else if c = '\r' then ['\\', 'r']
  else if c = '\t' then ['\\', 't']
  else if c = '\x08' then ['\\', 'b']
  else if c = '\x0c' then ['\\', 'f']
  else if c.toNat < 32 then '\\' :: 'u' :: hex4 c.toNat
  else [c]

def quoted (s : String) : String :=
  String.ofList ('"' :: s.toList.flatMap escape ++ ['"'])

/-- The text of a value without parts. Floats that are not finite have none of their own. -/
def scalar : Value → String
  | .null => "null"
  | .bool true => "true"
  | .bool false => "false"
  | .int n => toString n
  | .float x => if x.isFinite then Decimal.writeShortest Decimal.dataStyle x else "null"
  | .text s => quoted s
  | _ => ""

mutual

/-- A value on one line, without blank space. -/
def compact : Value → String
  | .list items => "[" ++ ",".intercalate (compactItems items) ++ "]"
  | .object fields => "\x7b" ++ ",".intercalate (compactFields fields) ++ "\x7d"
  | v => scalar v

def compactItems : List Value → List String
  | [] => []
  | v :: r => compact v :: compactItems r

def compactFields : List (String × Value) → List String
  | [] => []
  | (k, v) :: r => (quoted k ++ ":" ++ compact v) :: compactFields r

end

def indent (depth : Nat) : String := String.ofList (List.replicate (2 * depth) ' ')

/-- Parts between two brackets, each on a line of its own one step deeper. -/
def bracketed (depth : Nat) (opening closing : String) (parts : List String) : String :=
  if parts.isEmpty then opening ++ closing
  else
    let gap := ",\n" ++ indent (depth + 1)
    opening ++ "\n" ++ indent (depth + 1) ++ gap.intercalate parts ++ "\n" ++ indent depth ++
      closing

mutual

/-- A value over several lines, indented by two blanks for each level. -/
def pretty (depth : Nat) : Value → String
  | .list items => bracketed depth "[" "]" (prettyItems (depth + 1) items)
  | .object fields => bracketed depth "\x7b" "\x7d" (prettyFields (depth + 1) fields)
  | v => scalar v

def prettyItems (depth : Nat) : List Value → List String
  | [] => []
  | v :: r => pretty depth v :: prettyItems depth r

def prettyFields (depth : Nat) : List (String × Value) → List String
  | [] => []
  | (k, v) :: r => (quoted k ++ ": " ++ pretty depth v) :: prettyFields depth r

end

end AddonAtlas.Json
