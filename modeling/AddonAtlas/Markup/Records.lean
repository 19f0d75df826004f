import AddonAtlas.Markup.Read
import AddonAtlas.Entity.Record
import AddonAtlas.Text.Classes

/-!
What a markup document declares: records and views, the packages it refers to, and scripts.
-/

namespace AddonAtlas.Markup

open AddonAtlas.Text

/-- Everything read from one document. -/
structure Unit where
  /-- Other packages that identifiers name. -/
  refers : NameSet
  /-- Records and views in document order. -/
  records : List Record
  /-- The sources of script elements. -/
  scripts : List String

/-- Elements whose identifier declares or overrides something. -/
def dataTags : List String :=
  ["act_window", "assert", "delete", "function", "menuitem", "record", "report", "template", "url"]

def viewModel : String := "ir.ui.view"

/-- Whether an element is a record of a view. -/
def isViewRecord (n : Node) : Bool := n.attribute? "model" == some viewModel

/-- The fields of a name directly in an element. -/
def fieldsNamed (n : Node) (name : String) : List Node :=
  n.children.filter fun c => c.hasName "field" && c.attribute? "name" == some name

/-- The templates called on an element or below it. -/
def callsBelow (n : Node) : List String := n.descendants.filterMap fun d => d.attribute? "t-call"

/-- The identifiers that an element names. -/
def identifiers (n : Node) : List String :=
  let own := if n.name = "record" then
      (fieldsNamed n "inherit_id").filterMap (fun f => f.attribute? "ref") ++
        (if isViewRecord n then (fieldsNamed n "arch").flatMap callsBelow else [])
    else if n.name = "template" then (n.attribute? "inherit_id").toList ++ callsBelow n
    else []
  own ++ (if dataTags.contains n.name then (n.attribute? "id").toList else [])

/-- The package that an identifier names: word characters, a dot and a word character. -/
def owner? (id : String) : Option String :=
  let cs := id.toList
  let head := cs.takeWhile isWord
  match cs.drop head.length with
  | '.' :: c :: _ => if !head.isEmpty && isWord c then some (String.ofList head) else none
  | _ => none

/-- The packages other than its own that a document refers to. -/
def references (elements : List Node) (package : String) : NameSet :=
  .ofList (((elements.flatMap identifiers).filterMap owner?).filter (· ≠ package))

/-- The elements below an element and all attributes on it and below. -/
def complexity (n : Node) : Nat :=
  let elements := n.descendants.filter Node.isElement
  (elements.length - 1) + elements.foldl (fun n e => n + e.attributes.length) 0

/-- The number of rows that an element spans. -/
def lineSpan (n : Node) : Nat :=
  match n.tag? with
  | some t => t.lastRow - t.firstRow + 1
  | none => 0

/-- What a record or template declares besides its name. -/
structure Contents where
  inherit : Option String
  calls : List String
  model : Option String
  view : Bool

def contents? (n : Node) : Option Contents :=
  if n.name = "template" then some ⟨n.attribute? "inherit_id", callsBelow n, none, true⟩
  else if n.name = "record" then
    if isViewRecord n then
      some {
        inherit := (fieldsNamed n "inherit_id").findSome? fun f => f.attribute? "ref"
        calls := (fieldsNamed n "arch").flatMap callsBelow
        model := ((fieldsNamed n "model").flatMap Node.descendants).findSome? Node.text?
        view := true }
    else some ⟨none, [], n.attribute? "model", false⟩
  else none

/-- The record that an element declares. An element with neither an identifier nor something it
extends declares none. -/
def record? (package : String) (n : Node) : Option Record := do
  let c ← contents? n
  let name ← match n.attribute? "id", c.inherit with
    | some id, _ => some (Record.qualify id package)
    | none, some parent => some (Record.syntheticName parent package)
    | none, none => none
  some {
    name := name
    inherit := c.inherit.map fun p => Record.qualify p package
    calls := .ofList (c.calls.map fun t => Record.qualify t package)
    model := c.model
    complexity := UInt64.ofNat (complexity n)
    lines := UInt64.ofNat (lineSpan n)
    view := c.view }

/-- Everything that a document declares. -/
def Unit.ofRoot (package : String) (root : Node) : Unit :=
  let elements := root.descendants.filter Node.isElement
  { refers := references elements package
    records := elements.filterMap (record? package)
    scripts := (elements.filter fun n => n.hasName "script").filterMap fun n => n.attribute? "src" }

/-- Read a text; none if it is not well-formed. -/
def Unit.ofText? (package text : String) : Option Unit := (read? text).map (ofRoot package)

end AddonAtlas.Markup
