import AddonAtlas.Catalog.Basic
import AddonAtlas.Entity.Json

/-!
What packages use, compared with what they declare.
-/

namespace AddonAtlas

/-- The use of dependencies by one package. -/
structure Usage where
  dataCount : UInt64
  depends : NameSet
  fields : Nat
  imports : NameSet
  modelCount : Nat
  /-- The packages that are used: imports, references and owners of extended models. -/
  used : NameSet
  /-- The packages that are used without being a dependency. -/
  missing : NameSet

namespace Usage

def value (u : Usage) : Value :=
  .object ([("data_count", .int u.dataCount.toNat), ("depends", u.depends.value),
      ("fields", .int u.fields), ("imports", u.imports.value), ("model_count", .int u.modelCount),
      ("refers", u.used.value)] ++
    if u.missing.isEmpty then [] else [("missing_dependency", u.missing.value)])

end Usage

namespace Catalog

/-- The package that all others depend on without saying so. -/
def basePackage : String := "base"

/-- The packages that define models from scratch, by model. -/
def owners (c : Catalog) : NameMap String :=
  .ofList (c.full.values.flatMap fun p =>
    (p.models.entries.filter fun e => e.2.inherit.isEmpty && e.2.inherits.isEmpty).map fun e =>
      (e.1, p.name))

/-- The packages that a package uses. -/
def usedBy (owners : NameMap String) (p : Package) : NameSet :=
  (p.imports.union p.refers).insertMany
    ((p.models.values.flatMap Model.parents).filterMap owners.get?)

def usage (c : Catalog) (owners : NameMap String) (p : Package) : Usage :=
  let used := usedBy owners p
  let closure := c.fullDependency p.name
  { dataCount := p.dataCount
    depends := p.depends
    fields := p.models.values.foldl (fun n m => n + m.fields.size) 0
    imports := p.imports
    modelCount := p.models.size
    used := used
    missing := used.filter fun u => !closure.contains u && u ≠ basePackage && u ≠ p.name }

/-- The use of dependencies by every selected package. -/
def dependencyReport (c : Catalog) : NameMap Usage :=
  let owners := c.owners
  .ofList (c.packages.map fun p => (p.name, c.usage owners p))

end Catalog

end AddonAtlas
