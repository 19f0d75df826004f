import AddonAtlas.Catalog.Basic
import AddonAtlas.Json.Read
import AddonAtlas.Json.Write
import AddonAtlas.Package.Json

/-!
Catalogs as saved text. Only the full set is saved.
-/

namespace AddonAtlas.Catalog

def value (c : Catalog) : Value := NameMap.value Package.value c.full

def toJson (c : Catalog) : String := Json.compact c.value

/-- The catalog that a text saves, with everything selected. -/
def ofJson? (text : String) : Option Catalog :=
  ((Json.read? text).bind (Json.map? Package.ofValue?)).map ofFull

/-- The states of packages that a text lists. -/
def statesOfJson? (text : String) : Option (NameMap String) :=
  (Json.read? text).bind (Json.map? Json.text?)

end AddonAtlas.Catalog
