import AddonAtlas.Graph.Cycle
import AddonAtlas.Json.Decode

/-!
Views of graphs: the nodes and edges of one query, with what is to be shown of them.
-/

namespace AddonAtlas

/-- How far a package has been moved to a version. -/
inductive MigrationState
  /-- The package and all it depends on. -/
  | done
  /-- The package, but not all it depends on. -/
  | partly
  /-- Not the package, but all it depends on. -/
  | ready
  | notMigrated
  deriving DecidableEq, Repr

/-- What a node of a structure stands for. -/
inductive NodeKind
  | package
  | model
  | field
  | view
  deriving DecidableEq, Repr

structure GraphNode where
  name : String
  /-- No edges go out of it. -/
  base : Bool
  /-- It was not asked for, but installs itself. -/
  autoIncluded : Bool := false
  migration : Option MigrationState := none
  kind : Option NodeKind := none
  deriving DecidableEq, Repr

structure GraphEdge where
  source : String
  target : String
  inCycle : Bool
  deriving DecidableEq, Repr

structure GraphView where
  nodes : List GraphNode := []
  edges : List GraphEdge := []
  deriving DecidableEq, Repr

namespace GraphView

/-- The node of a visible name. -/
def nodeOf (g : Graph) (n : String) : GraphNode :=
  { name := n, base := (g.get? n).any OrdSet.isEmpty }

/-- The edges from a node to visible ones. -/
def edgesOf (g : Graph) (visible : NameSet) (cycles : List Graph.Edge) (n : String) :
    List GraphEdge :=
  ((g.targets n).toList.filter visible.contains).map fun t => ⟨n, t, cycles.contains (n, t)⟩

/-- The view of visible nodes. An edge is shown if both its ends are visible. -/
def build (g : Graph) (visible : NameSet) (cycles : List Graph.Edge) : GraphView :=
  { nodes := visible.toList.map (nodeOf g)
    edges := visible.toList.flatMap (edgesOf g visible cycles) }

def node? (v : GraphView) (n : String) : Option GraphNode := v.nodes.find? fun x => x.name == n

def hasEdge (v : GraphView) (a b : String) : Bool :=
  v.edges.any fun e => e.source == a && e.target == b

def cycleEdges (v : GraphView) : List GraphEdge := v.edges.filter GraphEdge.inCycle

end GraphView

/-! ## Views as saved data -/

open Json

namespace MigrationState

def text : MigrationState → String
  | .done => "done"
  | .partly => "partial"
  | .ready => "todo"
  | .notMigrated => "not-migrated"

def all : List MigrationState := [.done, .partly, .ready, .notMigrated]

end MigrationState

namespace NodeKind

def text : NodeKind → String
  | .package => "package"
  | .model => "model"
  | .field => "field"
  | .view => "view"

def all : List NodeKind := [.package, .model, .field, .view]

end NodeKind

/-- The choice that a text names; a choice may also be written as an object without content. -/
def choice? (all : List α) (text : α → String) : Value → Option α
  | .text s => all.find? fun x => text x == s
  | .object [(s, .null)] => all.find? fun x => text x == s
  | _ => none

namespace GraphNode

def value (n : GraphNode) : Value :=
  .object ([("name", .text n.name), ("base", .bool n.base),
      ("auto_included", .bool n.autoIncluded)] ++
    (n.migration.map fun m => ("migration", Value.text m.text)).toList ++
    (n.kind.map fun k => ("kind", Value.text k.text)).toList)

def ofValue? (v : Value) : Option GraphNode := do
  let fs ← fields? ["name", "base", "auto_included", "migration", "kind"] v
  let migration? := choice? MigrationState.all MigrationState.text
  let kind? := choice? NodeKind.all NodeKind.text
  some {
    name := ← required fs "name" text?
    base := ← required fs "base" bool?
    autoIncluded := ← defaulted fs "auto_included" bool? false
    migration := ← defaulted fs "migration" (nullable migration?) none
    kind := ← defaulted fs "kind" (nullable kind?) none }

end GraphNode

namespace GraphEdge

def value (e : GraphEdge) : Value :=
  .object [("from", .text e.source), ("to", .text e.target), ("in_cycle", .bool e.inCycle)]

def ofValue? (v : Value) : Option GraphEdge := do
  let fs ← fields? ["from", "to", "in_cycle"] v
  some ⟨← required fs "from" text?, ← required fs "to" text?, ← required fs "in_cycle" bool?⟩

end GraphEdge

namespace GraphView

def value (v : GraphView) : Value :=
  .object [("nodes", .list (v.nodes.map GraphNode.value)),
    ("edges", .list (v.edges.map GraphEdge.value))]

def ofValue? (v : Value) : Option GraphView := do
  let fs ← fields? ["nodes", "edges"] v
  some ⟨← required fs "nodes" (list? GraphNode.ofValue?),
    ← required fs "edges" (list? GraphEdge.ofValue?)⟩

end GraphView

end AddonAtlas
