import AddonAtlas.Ordered.Set

/-!
Script assets.
-/

namespace AddonAtlas

/-- A script, perhaps one that declares itself as a named module. -/
structure ScriptModule where
  name : String
  otherName : Option String := none
  default : Bool := true
  requires : NameSet := .empty
  complexity : Option Float := none

def ScriptModule.text (s : ScriptModule) : String :=
  match s.otherName with
  | some a => "<JS: " ++ s.name ++ "/" ++ a ++ ">"
  | none => "<JS: " ++ s.name ++ ">"

end AddonAtlas
