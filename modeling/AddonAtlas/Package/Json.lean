import AddonAtlas.Entity.Json
import AddonAtlas.Package.Basic

/-!
Packages as saved data.
-/

namespace AddonAtlas

open Json

namespace LanguageShare

def value (s : LanguageShare) : Value :=
  .object [("lines", .int s.lines.toNat), ("fraction_from_total", .float s.fraction)]

def ofValue? (v : Value) : Option LanguageShare := do
  let fs ← fields? ["lines", "fraction_from_total"] v
  some ⟨← required fs "lines" word64?, ← required fs "fraction_from_total" float?⟩

end LanguageShare

def PackageInfo.fields (i : PackageInfo) : List (String × Value) :=
  [("name", .text i.name), ("model_count", .int i.modelCount), ("class_count", .int i.classCount),
    ("record_count", .int i.recordCount), ("view_count", .int i.viewCount),
    ("depends", .int i.depends)]

namespace Package

/-- The fields of a saved package, in order. -/
def fieldNames : List String :=
  ["path", "name", "manifest", "models", "classes", "script_modules", "views", "records",
    "depends", "imports", "refers", "files", "status", "language", "words", "hashsum",
    "data_count", "duration_secs"]

def value (p : Package) : Value :=
  .object [
    ("path", .text p.path.text), ("name", .text p.name), ("manifest", .ofMap p.manifest),
    ("models", NameMap.value Model.value p.models),
    ("classes", NameMap.value Model.value p.classes),
    ("script_modules", NameMap.value ScriptModule.value p.scriptModules),
    ("views", NameMap.value Record.value p.views),
    ("records", NameMap.value Record.value p.records),
    ("depends", p.depends.value), ("imports", p.imports.value), ("refers", p.refers.value),
    ("files", .ofTexts (p.files.paths.map Path.text)), ("status", p.status.value),
    ("language", NameMap.value LanguageShare.value p.language), ("words", p.words.value),
    ("hashsum", .text p.hashsum), ("data_count", .int p.dataCount.toNat),
    ("duration_secs", .float p.durationSeconds)]

def ofValue? (v : Value) : Option Package := do
  let fs ← fields? fieldNames v
  some {
    path := ← required fs "path" path?
    name := ← required fs "name" text?
    manifest := ← defaulted fs "manifest" manifest? .empty
    models := ← defaulted fs "models" (map? Model.ofValue?) .empty
    classes := ← defaulted fs "classes" (map? Model.ofValue?) .empty
    scriptModules := ← defaulted fs "script_modules" (map? ScriptModule.ofValue?) .empty
    views := ← defaulted fs "views" (map? Record.ofValue?) .empty
    records := ← defaulted fs "records" (map? Record.ofValue?) .empty
    depends := ← defaulted fs "depends" names? .empty
    imports := ← defaulted fs "imports" names? .empty
    refers := ← defaulted fs "refers" names? .empty
    files := ← defaulted fs "files" paths? .empty
    status := ← defaulted fs "status" names? .empty
    language := ← defaulted fs "language" (map? LanguageShare.ofValue?) .empty
    words := ← defaulted fs "words" names? .empty
    hashsum := ← defaulted fs "hashsum" text? ""
    dataCount := ← defaulted fs "data_count" word64? 0
    durationSeconds := ← defaulted fs "duration_secs" float? 0.0 }

end Package

end AddonAtlas
