/-!
Runs of external programs and why they fail.
-/

namespace AddonAtlas.Tool

/-- Why a program gave no usable output. -/
inductive ToolError
  | empty
  | notFound (program : String)
  | timedOut (program : String) (milliseconds : Nat)
  | failed (program : String) (status : Nat)
  | unrunnable (program : String)
  deriving DecidableEq, Repr

/-- A time span in the largest unit that leaves a whole part, without needless digits. -/
def durationText (milliseconds : Nat) : String :=
  if milliseconds = 0 then "0ns"
  else if milliseconds < 1000 then toString milliseconds ++ "ms"
  else
    let places := (Nat.toDigits 10 (1000 + milliseconds % 1000)).drop 1
    let places := (places.reverse.dropWhile (· == '0')).reverse
    toString (milliseconds / 1000) ++
      (if places.isEmpty then "" else "." ++ String.ofList places) ++ "s"

def ToolError.message? : ToolError → Option String
  | .empty => some "no command configured"
  | .notFound p => some ("'" ++ p ++ "' not found")
  | .timedOut p n => some ("'" ++ p ++ "' timed out after " ++ durationText n)
  | .failed p n => some ("'" ++ p ++ "' exited with status " ++ toString n)
  | .unrunnable _ => none

end AddonAtlas.Tool
