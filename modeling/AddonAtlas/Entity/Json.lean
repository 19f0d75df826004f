import AddonAtlas.Json.Decode
import AddonAtlas.Entity.Model
import AddonAtlas.Entity.Record
import AddonAtlas.Entity.ScriptModule

/-!
Models, records and scripts as saved data.
-/

namespace AddonAtlas

open Json

def NameSet.value (s : NameSet) : Value := .ofTexts s.toList

def NameMap.value (f : α → Value) (m : NameMap α) : Value :=
  .object (m.entries.map fun e => (e.1, f e.2))

namespace Field

def value (f : Field) : Value :=
  .object [("type_tag", .text f.typeTag), ("source_text", .ofText? f.sourceText)]

def ofValue? (v : Value) : Option Field := do
  let fs ← fields? ["type_tag", "source_text"] v
  some ⟨← required fs "type_tag" text?, ← defaulted fs "source_text" (nullable text?) none⟩

end Field

namespace Function

def value (f : Function) : Value :=
  .object [("parameters", .ofTexts f.parameters), ("complexity", .int f.complexity.toNat),
    ("lines", .int f.lines.toNat), ("halstead", .float f.halstead)]

def ofValue? (v : Value) : Option Function := do
  let fs ← fields? ["parameters", "complexity", "lines", "halstead"] v
  some {
    parameters := ← required fs "parameters" texts?
    complexity := ← defaulted fs "complexity" word32? 0
    lines := ← defaulted fs "lines" word32? 0
    halstead := ← defaulted fs "halstead" float? 0.0 }

end Function

namespace Model

def value (m : Model) : Value :=
  .object [("name", .ofText? m.name), ("inherit", m.inherit.value),
    ("inherits", NameMap.value .text m.inherits), ("fields", NameMap.value Field.value m.fields),
    ("functions", NameMap.value Function.value m.functions)]

def ofValue? (v : Value) : Option Model := do
  let fs ← fields? ["name", "inherit", "inherits", "fields", "functions"] v
  some {
    name := ← defaulted fs "name" (nullable text?) none
    inherit := ← defaulted fs "inherit" names? .empty
    inherits := ← defaulted fs "inherits" (map? text?) .empty
    fields := ← defaulted fs "fields" (map? Field.ofValue?) .empty
    functions := ← defaulted fs "functions" (map? Function.ofValue?) .empty }

end Model

namespace Record

def value (r : Record) : Value :=
  .object [("name", .text r.name), ("inherit", .ofText? r.inherit), ("calls", r.calls.value),
    ("model", .ofText? r.model), ("complexity", .int r.complexity.toNat),
    ("lines", .int r.lines.toNat), ("view", .bool r.view)]

def ofValue? (v : Value) : Option Record := do
  let fs ← fields? ["name", "inherit", "calls", "model", "complexity", "lines", "view"] v
  some {
    name := ← required fs "name" text?
    inherit := ← defaulted fs "inherit" (nullable text?) none
    calls := ← defaulted fs "calls" names? .empty
    model := ← defaulted fs "model" (nullable text?) none
    complexity := ← defaulted fs "complexity" word64? 0
    lines := ← defaulted fs "lines" word64? 0
    view := ← defaulted fs "view" bool? false }

end Record

namespace ScriptModule

def value (s : ScriptModule) : Value :=
  .object [("name", .text s.name), ("alias", .ofText? s.otherName), ("default", .bool s.default),
    ("requires", s.requires.value), ("complexity", (s.complexity.map .float).getD .null)]

def ofValue? (v : Value) : Option ScriptModule := do
  let fs ← fields? ["name", "alias", "default", "requires", "complexity"] v
  some {
    name := ← required fs "name" text?
    otherName := ← defaulted fs "alias" (nullable text?) none
    default := ← defaulted fs "default" bool? true
    requires := ← defaulted fs "requires" names? .empty
    complexity := ← defaulted fs "complexity" (nullable float?) none }

end ScriptModule

end AddonAtlas
