/-!
Markup documents as trees.
-/

namespace AddonAtlas.Markup

/-- An attribute. Attributes with a namespace are not found by their name alone. -/
structure Attribute where
  namespaced : Bool
  name : String
  value : String
  deriving Repr, DecidableEq

/-- What a tag says of an element, and the rows it spans, counted from zero. -/
structure Tag where
  name : String
  attributes : List Attribute
  firstRow : Nat
  lastRow : Nat
  deriving Repr

/-- A node of a document. Comments and instructions only separate texts. -/
inductive Node
  | element (tag : Tag) (children : List Node)
  | text (s : String)
  | other
  deriving Repr

namespace Node

instance : Inhabited Node := ⟨.other⟩

mutual

/-- A node and all nodes below it, in document order. -/
def descendants : Node → List Node
  | .element t cs => .element t cs :: descendantsOf cs
  | n => [n]

def descendantsOf : List Node → List Node
  | [] => []
  | n :: r => descendants n ++ descendantsOf r

end

def children : Node → List Node
  | .element _ cs => cs
  | _ => []

def tag? : Node → Option Tag
  | .element t _ => some t
  | _ => none

def isElement (n : Node) : Bool := n.tag?.isSome

/-- The local name of an element. -/
def name (n : Node) : String := (n.tag?.map Tag.name).getD ""

def hasName (n : Node) (s : String) : Bool := n.isElement && n.name == s

def attributes (n : Node) : List Attribute := (n.tag?.map Tag.attributes).getD []

/-- The value of an attribute without a namespace. -/
def attribute? (n : Node) (s : String) : Option String :=
  (n.attributes.find? fun a => !a.namespaced && a.name == s).map Attribute.value

def text? : Node → Option String
  | .text s => some s
  | _ => none

end Node

end AddonAtlas.Markup
