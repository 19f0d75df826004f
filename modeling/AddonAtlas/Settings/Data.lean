import AddonAtlas.Json.Decode
import AddonAtlas.Settings.Basic

/-!
Settings as data: tables with defaults for what they leave out.
-/

namespace AddonAtlas

open Json

namespace DiscoverySettings

def value (s : DiscoverySettings) : Value :=
  .object [
    ("manifest_files", .ofTexts s.manifestFiles), ("entry_point", .text s.entryPoint),
    ("addons_prefixes", .ofTexts s.addonsPrefixes),
    ("framework_packages", .ofTexts s.frameworkPackages),
    ("folder_blacklist", .ofTexts s.folderBlacklist.toList),
    ("stopwords", .ofTexts s.stopwords.toList),
    ("max_depth", (s.maxDepth.map fun n => Value.int n).getD .null),
    ("skip_python", .bool s.skipPython), ("skip_readme", .bool s.skipReadme),
    ("skip_data", .bool s.skipData), ("skip_assets", .bool s.skipAssets),
    ("skip_language", .bool s.skipLanguage)]

def fieldNames : List String :=
  ["manifest_files", "entry_point", "addons_prefixes", "framework_packages", "folder_blacklist",
    "stopwords", "max_depth", "skip_python", "skip_readme", "skip_data", "skip_assets",
    "skip_language"]

def ofValue? (v : Value) : Option DiscoverySettings := do
  let fs ← fields? fieldNames v
  let d : DiscoverySettings := {}
  some {
    manifestFiles := ← defaulted fs "manifest_files" texts? d.manifestFiles
    entryPoint := ← defaulted fs "entry_point" text? d.entryPoint
    addonsPrefixes := ← defaulted fs "addons_prefixes" texts? d.addonsPrefixes
    frameworkPackages := ← defaulted fs "framework_packages" texts? d.frameworkPackages
    folderBlacklist := ← defaulted fs "folder_blacklist" names? d.folderBlacklist
    stopwords := ← defaulted fs "stopwords" names? d.stopwords
    maxDepth := ← defaulted fs "max_depth" (nullable (natBelow? UInt64.size)) d.maxDepth
    skipPython := ← defaulted fs "skip_python" bool? d.skipPython
    skipReadme := ← defaulted fs "skip_readme" bool? d.skipReadme
    skipData := ← defaulted fs "skip_data" bool? d.skipData
    skipAssets := ← defaulted fs "skip_assets" bool? d.skipAssets
    skipLanguage := ← defaulted fs "skip_language" bool? d.skipLanguage }

end DiscoverySettings

namespace ToolSettings

def value (s : ToolSettings) : Value :=
  .object [("line_counter", .ofTexts s.lineCounter),
    ("script_complexity", .ofTexts s.scriptComplexity), ("porter", .ofTexts s.converter),
    ("timeout_secs", .int s.timeoutSeconds)]

def ofValue? (v : Value) : Option ToolSettings := do
  let fs ← fields? ["line_counter", "script_complexity", "porter", "timeout_secs"] v
  let d : ToolSettings := {}
  some {
    lineCounter := ← defaulted fs "line_counter" texts? d.lineCounter
    scriptComplexity := ← defaulted fs "script_complexity" texts? d.scriptComplexity
    converter := ← defaulted fs "porter" texts? d.converter
    timeoutSeconds := ← defaulted fs "timeout_secs" (natBelow? UInt64.size) d.timeoutSeconds }

end ToolSettings

namespace GraphSettings

def value (s : GraphSettings) : Value :=
  .object [("skip_lonely_nodes", .bool s.skipLonelyNodes),
    ("show_full_dependency", .bool s.showFullDependency)]

def ofValue? (v : Value) : Option GraphSettings := do
  let fs ← fields? ["skip_lonely_nodes", "show_full_dependency"] v
  let d : GraphSettings := {}
  some {
    skipLonelyNodes := ← defaulted fs "skip_lonely_nodes" bool? d.skipLonelyNodes
    showFullDependency := ← defaulted fs "show_full_dependency" bool? d.showFullDependency }

end GraphSettings

namespace Settings

def value (s : Settings) : Value :=
  .object [("discovery", s.discovery.value), ("tools", s.tools.value), ("graph", s.graph.value)]

def ofValue? (v : Value) : Option Settings := do
  let fs ← fields? ["discovery", "tools", "graph"] v
  some {
    discovery := ← defaulted fs "discovery" DiscoverySettings.ofValue? {}
    tools := ← defaulted fs "tools" ToolSettings.ofValue? {}
    graph := ← defaulted fs "graph" GraphSettings.ofValue? {} }

end Settings

end AddonAtlas
