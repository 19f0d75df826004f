import AddonAtlas.Catalog.Basic
import AddonAtlas.Glob.Set
import AddonAtlas.Graph.View

/-!
How far the selected packages have been moved to a version.
-/

namespace AddonAtlas.Catalog

def migrationState (own dependencies : Bool) : MigrationState :=
  match own, dependencies with
  | true, true => .done
  | true, false => .partly
  | false, true => .ready
  | false, false => .notMigrated

/-- The state of every selected package for a glob of versions. Of the dependencies only selected
ones count. -/
def migrationStates (c : Catalog) (version : String) :
    Except GlobError (NameMap MigrationState) := do
  let g ← GlobSet.parse version
  let migrated : NameSet :=
    .ofList ((c.packages.filter fun p => g.accepts p.version).map Package.name)
  pure (.ofList (c.packages.map fun p =>
    (p.name, migrationState (migrated.contains p.name)
      ((p.depends.filter c.selected.contains).all migrated.contains))))

end AddonAtlas.Catalog
