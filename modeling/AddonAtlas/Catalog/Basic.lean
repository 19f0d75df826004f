import AddonAtlas.Graph.Reach
import AddonAtlas.Package.Manifest

/-!
Catalogs: all packages of a discovery, and a selection of them.

Of several packages with one name the first one counts; the later ones are kept aside as
shadowed. Filters narrow the selection only, so what is looked up in the full set does not depend on
them.
-/

namespace AddonAtlas

structure Catalog where
  full : NameMap Package := .empty
  selected : NameSet := .empty
  shadowed : List Package := []

namespace Catalog

/-- Add a package that was found later. -/
def add (c : Catalog) (p : Package) : Catalog :=
  if c.full.contains p.name then { c with shadowed := c.shadowed ++ [p] }
  else { c with full := c.full.insert p.name p, selected := c.selected.insert p.name }

/-- The catalog of packages in the order of their discovery. -/
def ofPackages (l : List Package) : Catalog := l.foldl add {}

/-- The catalog of a full set, with everything selected. -/
def ofFull (full : NameMap Package) : Catalog := { full, selected := .ofKeys full }

/-- The packages that a later discovery found under a name. -/
def shadowedBy (c : Catalog) (n : String) : List Package := c.shadowed.filter fun p => p.name == n

/-- The selected packages, in the order of their names. -/
def packages (c : Catalog) : List Package := c.selected.toList.filterMap c.full.get?

/-- The models of the selected packages; pieces under one name are merged. -/
def models (c : Catalog) : NameMap Model :=
  (c.packages.flatMap fun p => p.models.entries).foldl (fun m (n, piece) =>
    m.update n fun
      | some old => old.merge piece
      | none => piece) .empty

/-- The views of the selected packages; declarations under one name are merged. -/
def views (c : Catalog) : NameMap Record :=
  (c.packages.flatMap fun p => p.views.entries).foldl (fun m (n, view) =>
    m.update n fun
      | some old => old.merge view
      | none => view) .empty

/-- The views of the selected packages, unless a count gets too large for a word: there the program
stops. -/
def views? (c : Catalog) : Option (NameMap Record) :=
  (c.packages.flatMap fun p => p.views.entries).foldlM (fun m (n, view) => Record.mergeAt? m n view)
    .empty

/-- The declared dependencies of the full set. -/
def dependsGraph (c : Catalog) : Graph := c.full.mapValues fun _ p => p.depends

/-- The packages of the full set that a package depends on, directly or not. -/
def fullDependency (c : Catalog) (n : String) : NameSet := c.dependsGraph.closure n

end Catalog

end AddonAtlas
