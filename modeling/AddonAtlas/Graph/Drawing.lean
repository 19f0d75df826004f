import AddonAtlas.Graph.View

/-!
Graph views as drawings in the DOT notation.
-/

namespace AddonAtlas

/-- The shape that a kind of node is drawn with. -/
def NodeKind.shape : NodeKind → String
  | .package => "doubleoctagon"
  | .model => "box"
  | .field => "octagon"
  | .view => "oval"

namespace GraphView

/-- The identifier of a drawing: everything but ASCII letters, digits and underscores becomes an
underscore. -/
def identifier (s : String) : String :=
  String.ofList (s.toList.map fun c => if c.isAlphanum || c == '_' then c else '_')

/-- A name between quotes. -/
def quotedName (s : String) : String :=
  String.ofList ('"' :: s.toList.flatMap
    (fun c => if c = '\\' || c = '"' then ['\\', c] else [c]) ++ ['"'])

/-- The color of a node: by its migration state if it has one, else base nodes are blue. -/
def colorOf (n : GraphNode) : Option String :=
  match n.migration with
  | some .done => some "green"
  | some .partly => some "orange"
  | some .ready => some "blue"
  | some .notMigrated => none
  | none => if n.base then some "blue" else none

/-- What follows the last slash of a name. -/
def label (name : String) : String :=
  String.ofList (name.toList.reverse.takeWhile (· ≠ '/')).reverse

def attributesOf (n : GraphNode) : List String :=
  ((colorOf n).map fun c => "color=" ++ c).toList ++
    (match n.kind with
    | some k => ["shape=" ++ k.shape, "label=" ++ quotedName (label n.name)]
    | none => []) ++
    (if n.autoIncluded then ["style=dashed"] else [])

def nodeLine (n : GraphNode) : String :=
  let given := attributesOf n
  "  " ++ quotedName n.name ++
    (if given.isEmpty then ";\n" else " [" ++ ", ".intercalate given ++ "];\n")

def edgeLine (e : GraphEdge) : String :=
  "  " ++ quotedName e.source ++ " -> " ++ quotedName e.target ++
    (if e.inCycle then " [color=red];\n" else ";\n")

/-- The drawing of a view under a name. -/
def drawing (v : GraphView) (name : String) : String :=
  "digraph " ++ identifier name ++ " \x7b\n  rankdir=LR;\n  node [shape=box];\n\n" ++
    String.join (v.nodes.map nodeLine) ++ (if v.edges.isEmpty then "" else "\n") ++
    String.join (v.edges.map edgeLine) ++ "\x7d\n"

end GraphView

end AddonAtlas
