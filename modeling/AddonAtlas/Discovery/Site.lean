import AddonAtlas.Files.Tree
import AddonAtlas.Settings.Basic
import AddonAtlas.Source.Recovery
import AddonAtlas.Tool.Program

/-!
What a discovery works with.
-/

namespace AddonAtlas

/-- Files, settings for reading them, and external programs. -/
structure Site where
  files : FileTree
  settings : Settings := {}
  tools : Tool.Toolbox := .empty
  /-- The first fault that the parser finds in a source with syntax errors. -/
  fault? : String → Option Source.Fault := fun _ => none

namespace Site

def discovery (s : Site) : DiscoverySettings := s.settings.discovery

/-- The output of an external program on a path, if it gives one. -/
def output? (s : Site) (argv : List String) (p : Path) : Option String :=
  (Tool.runOn s.tools s.files argv (1000 * s.settings.tools.timeoutSeconds) p.text).toOption

end Site

end AddonAtlas
