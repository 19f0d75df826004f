import AddonAtlas.Decimal.Read
import AddonAtlas.Json.Read

/-!
Reports of a linter: the highest complexity that its messages name.
-/

namespace AddonAtlas.Tool.ComplexityReport

open AddonAtlas.Text

/-- The words before a number. -/
def announcement : String := "complexity of "

/-- The digits behind the first announcement that has some. -/
def digits? : List Char → Option (List Char)
  | [] => none
  | c :: r =>
    let ds := ((c :: r).drop announcement.length).takeWhile isDigit
    if announcement.toList.isPrefixOf (c :: r) && !ds.isEmpty then some ds else digits? r

/-- The complexity that a message names. Only ASCII digits write a number. -/
def complexity? (message : String) : Option Float :=
  (digits? message.toList).bind fun ds =>
    if ds.all Char.isDigit then some (Decimal.nearest ds 0) else none

/-- What stands at a name of an object. -/
def field? (v : Value) (name : String) : Option Value :=
  match v with
  | .object fs => (Value.fieldMap fs).get? name
  | _ => none

/-- The texts of the messages about a file. -/
def messages (file : Value) : List String :=
  match field? file "messages" with
  | some (.list l) => l.filterMap fun m => (field? m "message").bind Value.text?
  | _ => []

/-- The highest complexity in a report; none if the report is malformed or names no complexity. -/
def read? (report : String) : Option Float :=
  match Json.read? report with
  | some (.list files) =>
    if Value.allFinite files then
      match (files.flatMap messages).filterMap complexity? with
      | [] => none
      | x :: r => some (r.foldl (fun a b => if a < b then b else a) x)
    else none
  | _ => none

end AddonAtlas.Tool.ComplexityReport
