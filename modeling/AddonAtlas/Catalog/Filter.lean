import AddonAtlas.Catalog.Basic
import AddonAtlas.Glob.Set

/-!
Filters on the selection of a catalog.

A filter works on a catalog in place. Patterns are read before a package is dropped.
-/

namespace AddonAtlas.Catalog

/-- Keep the selected packages that pass a test. -/
def retain (c : Catalog) (keep : Package → Bool) : Catalog :=
  { c with selected := c.selected.filter fun n => (c.full.get? n).any keep }

/-- Whether a package only serves tests. -/
def isTest (p : Package) : Bool := "test_".toList.isPrefixOf p.name.toList

def testFilter (c : Catalog) : Catalog := c.retain fun p => !isTest p

/-- What is done to a catalog in place. A failure tells of the catalog it leaves behind, too. -/
abbrev Filtering := EStateM GlobError Catalog Unit

/-- Keep the packages whose path matches a set of globs. -/
def pathFilter (patterns : String) : Filtering := do
  let g ← liftExcept (GlobSet.parse patterns)
  modify fun c => c.retain fun p => g.accepts p.path.text

/-- Keep the packages whose name matches a set of globs. -/
def nameFilter (patterns : String) : Filtering := do
  let g ← liftExcept (GlobSet.parse patterns)
  modify fun c => c.retain fun p => g.accepts p.name

/-- States that a text names, with commas between them. -/
def wantedStates (text : String) : List String :=
  (text.splitOn ",").map fun s => String.ofList (Text.trim s.toList)

/-- Keep the packages whose state is among wanted ones. -/
def stateFilter (c : Catalog) (states : NameMap String) (wanted : String) : Catalog :=
  c.retain fun p => (states.get? p.name).any (wantedStates wanted).contains

end AddonAtlas.Catalog
