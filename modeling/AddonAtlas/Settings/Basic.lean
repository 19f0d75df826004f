import AddonAtlas.Ordered.Set

/-!
Settings: how packages are recognized and read, which tools are run, and how graphs are shown.
-/

namespace AddonAtlas

/-- How package directories are recognized and what is read from them. -/
structure DiscoverySettings where
  manifestFiles : List String := ["__manifest__.py", "__odoo__.py", "__openerp__.py"]
  entryPoint : String := "__init__.py"
  /-- Beginnings of import paths behind which the name of a package stands. -/
  addonsPrefixes : List String := ["odoo.addons.", "openerp.addons."]
  frameworkPackages : List String := ["odoo", "openerp"]
  folderBlacklist : NameSet := .ofList [".git", "__pycache__", "node_modules", "setup"]
  stopwords : NameSet := .empty
  maxDepth : Option Nat := none
  skipPython : Bool := false
  skipReadme : Bool := false
  skipData : Bool := false
  skipAssets : Bool := false
  skipLanguage : Bool := false

/-- Command lines of external tools. The file or directory comes last. -/
structure ToolSettings where
  lineCounter : List String := ["cloc"]
  scriptComplexity : List String :=
    ["eslint", "--no-eslintrc", "--format", "json", "--rule", "complexity: [1, 0]"]
  converter : List String := ["2to3", "-n", "-w"]
  timeoutSeconds : Nat := 30

/-- How graphs are shown unless a query says otherwise. -/
structure GraphSettings where
  skipLonelyNodes : Bool := true
  showFullDependency : Bool := false

structure Settings where
  discovery : DiscoverySettings := {}
  tools : ToolSettings := {}
  graph : GraphSettings := {}

end AddonAtlas
