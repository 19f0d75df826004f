import AddonAtlas.Source.Recovery
import AddonAtlas.Settings.Basic
import AddonAtlas.Tool.Program

/-!
The syntax converter: a configured program that brings a scratch copy of a source up to date.
-/

namespace AddonAtlas.Source

/-- The name of the scratch copy. -/
def scratchName : String := "source.py"

/-- What the converter sees: the scratch copy. -/
def scratchSight (text : String) : Tool.Sight :=
  ⟨fun p => if p = scratchName then some text.toUTF8 else none, fun _ => false⟩

/-- Run the configured converter on a text. A program that fails may have changed the text. -/
def runConverter (box : Tool.Toolbox) (s : ToolSettings) (text : String) : Converted :=
  let (answer, edited) :=
    Tool.run box (scratchSight text) s.converter (1000 * s.timeoutSeconds) scratchName
  { succeeded := match answer with
      | .ok _ => true
      | .error _ => false
    text? := match edited with
      | some bytes => String.fromUTF8? bytes
      | none => some text }

end AddonAtlas.Source
