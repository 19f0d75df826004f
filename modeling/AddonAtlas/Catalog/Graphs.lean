import AddonAtlas.Catalog.Migration
import AddonAtlas.Graph.Reach

/-!
The graphs of a catalog: its packages, their models and their views.
-/

namespace AddonAtlas

/-- What is shown of a graph. -/
structure GraphOptions where
  /-- Globs for the names of visible nodes. -/
  pattern : String := "*"
  skipLonely : Bool := true
  /-- Show everything that visible nodes lead to. -/
  full : Bool := false

namespace GraphOptions

/-- The graph without its lonely nodes, if they are to be skipped. -/
def shown (o : GraphOptions) (g : Graph) : Graph := if o.skipLonely then g.elideLonely else g

/-- The nodes whose names match the pattern. -/
def select (o : GraphOptions) (g : Graph) : Except GlobError NameSet := do
  let globs ← GlobSet.parse o.pattern
  pure ((OrdSet.ofKeys g).filter globs.accepts)

/-- The view of a graph. -/
def view (o : GraphOptions) (g : Graph) : Except GlobError GraphView := do
  let shown := o.shown g
  let visible ← o.select shown
  let visible := if o.full then shown.reachable visible.toList else visible
  pure (.build shown visible g.cycleEdges)

end GraphOptions

structure ModuleGraphOptions extends GraphOptions where
  relations : List Relation := [.depends]
  /-- A glob of versions by which nodes are given migration states. -/
  migration : Option String := none

structure ModelGraphOptions extends GraphOptions where
  inherit : Bool := true
  inherits : Bool := true

structure ViewGraphOptions extends GraphOptions where
  inherit : Bool := true
  calls : Bool := true

structure StructureGraphOptions where
  packages : String := "*"
  models : String := "*"
  views : String := "*"
  fields : Bool := true

namespace Catalog

/-- Whether a package installs itself once some packages are there. -/
def isReady (visible : NameSet) (p : Package) : Bool :=
  !visible.contains p.name && p.depends.isSubset visible

def ready (visible : NameSet) (l : List Package) : List Package := l.filter (isReady visible)

def waiting (visible : NameSet) (l : List Package) : List Package :=
  l.filter fun p => !isReady visible p

theorem length_waiting_lt {visible : NameSet} {l : List Package} (h : ready visible l ≠ []) :
    (waiting visible l).length < l.length := by
  obtain ⟨p, hp⟩ := List.exists_mem_of_ne_nil _ h
  obtain ⟨hmem, hready⟩ := List.mem_filter.1 hp
  exact List.length_filter_lt_length_iff_exists.2 ⟨p, hmem, by simp [hready]⟩

/-- Add the names of packages that install themselves, round by round, to visible names and to names
added before. -/
def expandAutoInstall (visible added : NameSet) (candidates : List Package) : NameSet × NameSet :=
  if ready visible candidates = [] then (visible, added)
  else
    let names := (ready visible candidates).map Package.name
    expandAutoInstall (visible.insertMany names) (added.insertMany names)
      (waiting visible candidates)
termination_by candidates.length
decreasing_by exact length_waiting_lt ‹_›

/-- The packages of the full set that install themselves. -/
def autoInstalled (c : Catalog) : List Package := c.full.values.filter Package.autoInstall

/-- The relations of the selected packages. -/
def relationGraph (c : Catalog) (rs : List Relation) : Graph :=
  .ofList (c.packages.map fun p => (p.name, p.related rs))

/-- Add nodes of the full set to a graph. -/
def withPackages (c : Catalog) (rs : List Relation) (g : Graph) (names : NameSet) : Graph :=
  names.toList.foldl (fun g n => match c.full.get? n with
    | some p => g.insertIfNew n (p.related rs)
    | none => g) g

/-- The view of the packages. With full dependencies, packages of the full set that install
themselves are part of it. -/
def moduleView (c : Catalog) (o : ModuleGraphOptions) : Except GlobError GraphView := do
  let g := c.relationGraph o.relations
  let shown := o.shown g
  let visible ← o.select shown
  if o.full then
    let (visible, added) :=
      expandAutoInstall (shown.reachable visible.toList) .empty c.autoInstalled
    let view := GraphView.build (c.withPackages o.relations shown added) visible g.cycleEdges
    pure { view with
      nodes := view.nodes.map fun n => { n with autoIncluded := added.contains n.name } }
  else pure (.build shown visible g.cycleEdges)

/-- Give the nodes of a view their migration states. -/
def withMigration (c : Catalog) (version : String) (view : GraphView) :
    Except GlobError GraphView := do
  let states ← c.migrationStates version
  pure { view with
    nodes := view.nodes.map fun n =>
      { n with migration := some (states.getD n.name .notMigrated) } }

/-- The graph of the packages by some of their relations. -/
def moduleGraph (c : Catalog) (o : ModuleGraphOptions) : Except GlobError GraphView := do
  let view ← c.moduleView o
  match o.migration with
  | some version => c.withMigration version view
  | none => pure view

/-- What each model extends and delegates to. -/
def modelLinks (c : Catalog) (o : ModelGraphOptions) : Graph :=
  c.models.mapValues fun _ m =>
    (if o.inherit then m.inherit else .empty).insertMany
      (if o.inherits then m.inherits.values else [])

/-- The graph of the models by extension and delegation. -/
def modelGraph (c : Catalog) (o : ModelGraphOptions) : Except GlobError GraphView :=
  o.view (c.modelLinks o)

/-- What each view calls and extends. -/
def viewLinks (c : Catalog) (o : ViewGraphOptions) : Graph :=
  c.views.mapValues fun _ r =>
    (if o.calls then r.calls else .empty).insertMany
      (if o.inherit then r.inherit.toList else [])

/-- The graph of the views by extension and calls. -/
def viewGraph (c : Catalog) (o : ViewGraphOptions) : Except GlobError GraphView :=
  o.view (c.viewLinks o)

/-- A member of a structure: its name and kind, and the name of what contains it. -/
structure Member where
  name : String
  kind : NodeKind
  container : Option String

/-- The members below a model. -/
def modelMembers (package : String) (fields : Bool) (name : String) (m : Model) : List Member :=
  let id := package ++ "/" ++ name
  ⟨id, .model, some package⟩ ::
    if fields then m.fields.keys.map fun f => ⟨id ++ "/" ++ f, .field, some id⟩ else []

/-- A package and its members: the models that match with their fields, then the views that match.
-/
def packageMembers (models views : GlobSet) (fields : Bool) (p : Package) : List Member :=
  ⟨p.name, .package, none⟩ ::
    ((p.models.entries.filter fun e => models.accepts e.1).flatMap fun e =>
      modelMembers p.name fields e.1 e.2) ++
    (p.views.keys.filter views.accepts).map fun v => ⟨p.name ++ "/" ++ v, .view, some p.name⟩

/-- The graph of the packages that match and of what they contain. -/
def structureGraph (c : Catalog) (o : StructureGraphOptions) : Except GlobError GraphView := do
  let packages ← GlobSet.parse o.packages
  let models ← GlobSet.parse o.models
  let views ← GlobSet.parse o.views
  let members := (c.packages.filter fun p => packages.accepts p.name).flatMap
    (packageMembers models views o.fields)
  pure {
    nodes := members.map fun m => { name := m.name, base := false, kind := some m.kind }
    edges := members.filterMap fun m => m.container.map fun k => ⟨k, m.name, false⟩ }

end Catalog

end AddonAtlas
