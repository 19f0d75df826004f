import AddonAtlas.Catalog.Basic
import AddonAtlas.Package.Json

/-!
Summaries of the selected packages, for reading and as data.
-/

namespace AddonAtlas.Catalog

/-- How a piece of text is made to stand out. -/
inductive Emphasis
  | bold
  | dimmed
  | yellow
  | cyan
  | boldGreen
  | boldYellow
  deriving DecidableEq, Repr

def Emphasis.code : Emphasis → String
  | .bold => "1"
  | .dimmed => "2"
  | .yellow => "33"
  | .cyan => "36"
  | .boldGreen => "1;32"
  | .boldYellow => "1;33"

/-- A piece of text with emphasis, where colors are wanted. -/
def emphasize (color : Bool) (e : Emphasis) (s : String) : String :=
  if color then "\x1b[" ++ e.code ++ "m" ++ s ++ "\x1b[0m" else s

/-- A line with names, left out if there are none. -/
def namesLine (color : Bool) (e : Emphasis) (title : String) (names : NameSet) : String :=
  if names.isEmpty then ""
  else "    " ++ emphasize color e title ++ ": " ++ ", ".intercalate names.toList ++ "\n"

def packageSummary (color : Bool) (p : Package) : String :=
  let i := p.info
  let version :=
    if p.version.isEmpty then "" else " " ++ emphasize color .dimmed p.version
  "\n  " ++ emphasize color .bold i.name ++ version ++ "\n" ++
    "    models: " ++ toString i.modelCount ++ ", classes: " ++ toString i.classCount ++
    ", views: " ++ toString i.viewCount ++ ", records: " ++ toString i.recordCount ++
    ", scripts: " ++ toString p.scriptModules.size ++ "\n" ++
    namesLine color .cyan "depends" p.depends ++ namesLine color .cyan "imports" p.imports ++
    namesLine color .cyan "refers" p.refers ++ namesLine color .boldYellow "status" p.status

/-- How many packages have diagnostics. -/
def diagnosticsLine (color : Bool) (flagged : Nat) : String :=
  if flagged = 0 then emphasize color .boldGreen "No diagnostics." ++ "\n"
  else
    emphasize color .boldYellow "Warning:" ++ " " ++ toString flagged ++
      " package(s) with diagnostics\n"

/-- The summary of a catalog for reading. -/
def summary (c : Catalog) (color : Bool) : String :=
  let ps := c.packages
  let total (f : Package → Nat) : String := toString (ps.foldl (fun n p => n + f p) 0)
  let body :=
    if ps.isEmpty then emphasize color .yellow "No packages found." ++ "\n"
    else
      emphasize color .bold "Packages" ++ "\n" ++ String.ofList (List.replicate 40 '-') ++ "\n" ++
        String.join (ps.map (packageSummary color)) ++ "\n" ++
        diagnosticsLine color (ps.filter fun p => !p.status.isEmpty).length
  "\n" ++ emphasize color .bold "Addonscope - Package Discovery" ++ "\n" ++
    String.ofList (List.replicate 40 '=') ++ "\n\n" ++
    emphasize color .bold "Summary" ++ ": " ++ toString ps.length ++ " packages, " ++
    total (fun p => p.models.size) ++ " models, " ++ total (fun p => p.views.size) ++
    " views, " ++ total (fun p => p.records.size) ++ " records\n\n" ++ body ++ "\n"

def packageEntry (p : Package) : Value :=
  .object (p.info.fields ++ [("version", .text p.version), ("status", p.status.value),
    ("hashsum", .text p.hashsum)])

/-- The summary of a catalog as data. -/
def summaryValue (c : Catalog) : Value :=
  .object [("package_count", .int c.packages.length),
    ("packages", .list (c.packages.map packageEntry))]

end AddonAtlas.Catalog
