import AddonAtlas.Files.Tree
import AddonAtlas.Settings.Data
import AddonAtlas.Toml.Read

/-!
The settings file: how it is found and read, and what a new one holds.
-/

namespace AddonAtlas.Settings

/-- The name of the settings file. -/
def fileName : String := ".addonscope.toml"

/-- Why settings cannot be loaded. -/
inductive LoadError
  | unreadable
  | malformed
  deriving DecidableEq, Repr

/-- The message about a settings file at a path. -/
def LoadError.message (path : String) : LoadError → String
  | .unreadable => "failed to read config file '" ++ path ++ "'"
  | .malformed =>
    "failed to parse '" ++ path ++ "'. Run `addonscope init` to create a valid config file"

/-- The settings that a text writes. -/
def ofText? (text : String) : Option Settings := (Toml.read? text).bind ofValue?

def load (t : FileTree) (p : Path) : Except LoadError Settings :=
  match t.readText? p with
  | none => .error .unreadable
  | some text => match ofText? text with
    | none => .error .malformed
    | some s => .ok s

/-- A path and the paths above it as they are written. -/
def writtenAncestors : Nat → Path → List Path
  | 0, p => [p]
  | n + 1, p => p :: match p.parent? with
    | none => []
    | some q => writtenAncestors n q

/-- The directories to look in for settings, from a path upwards. The true place of the path counts
if something is there. -/
def searchPath (t : FileTree) (p : Path) : List Path :=
  match t.lookup p, t.place? p with
  | some _, some here =>
    (List.range (here.length + 1)).reverse.map fun n => ⟨"/" ++ "/".intercalate (here.take n)⟩
  | _, _ => writtenAncestors p.text.length p

/-- The settings for a path: those of the nearest settings file, or the defaults if there is none or
it cannot be loaded. -/
def find (t : FileTree) (p : Path) : Settings :=
  match ((searchPath t p).map fun d => d.join fileName).find? t.hasNode with
  | none => {}
  | some file => match load t file with
    | .ok s => s
    | .error _ => {}

/-- The text of a new settings file. It writes the defaults. -/
def defaultText : String :=
  "\n".intercalate [
    "# addonscope - addon discovery and dependency analysis",
    "",
    "[discovery]",
    "manifest_files = [\"__manifest__.py\", \"__odoo__.py\", \"__openerp__.py\"]",
    "entry_point = \"__init__.py\"",
    "addons_prefixes = [\"odoo.addons.\", \"openerp.addons.\"]",
    "framework_packages = [\"odoo\", \"openerp\"]",
    "folder_blacklist = [\".git\", \"__pycache__\", \"node_modules\", \"setup\"]",
    "# Words ignored when collecting package keywords",
    "stopwords = []",
    "# max_depth = 3",
    "skip_python = false",
    "skip_readme = false",
    "skip_data = false",
    "skip_assets = false",
    "skip_language = false",
    "",
    "[tools]",
    "# The analysed file or directory is appended to each command line.",
    "line_counter = [\"cloc\"]",
    "script_complexity = [\"eslint\", \"--no-eslintrc\", \"--format\", \"json\", " ++
      "\"--rule\", \"complexity: [1, 0]\"]",
    "porter = [\"2to3\", \"-n\", \"-w\"]",
    "timeout_secs = 30",
    "",
    "[graph]",
    "skip_lonely_nodes = true",
    "show_full_dependency = false",
    ""]

end AddonAtlas.Settings
