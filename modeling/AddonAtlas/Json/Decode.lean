import AddonAtlas.Value
import AddonAtlas.Files.Path

/-!
Decoding values into domain types.

A structure is written as an object with its fields, or as a list of them in order. Unknown fields
are passed over, a field written twice is refused, and fields at the end of a list may be missing
where they have defaults.
-/

namespace AddonAtlas.Json

/-- The fields of a structure as far as they are written. -/
abbrev Fields := String → Option Value

/-- The fields with given names in a value. -/
def fields? (names : List String) : Value → Option Fields
  | .object fs =>
    if names.all fun n => (fs.filter fun f => f.1 == n).length ≤ 1 then
      some fun n => (fs.find? fun f => f.1 == n).map (·.2)
    else none
  | .list vs =>
    if vs.length ≤ names.length then
      some fun n => ((names.zip vs).find? fun f => f.1 == n).map (·.2)
    else none
  | _ => none

/-- A field that must be written. -/
def required (fs : Fields) (n : String) (d : Value → Option α) : Option α := (fs n).bind d

/-- A field with a default. -/
def defaulted (fs : Fields) (n : String) (d : Value → Option α) (default : α) : Option α :=
  match fs n with
  | none => some default
  | some v => d v

/-- A value that may be null. -/
def nullable (d : Value → Option α) : Value → Option (Option α)
  | .null => some none
  | v => (d v).map some

def text? : Value → Option String := Value.text?

def bool? : Value → Option Bool
  | .bool b => some b
  | _ => none

/-- A natural number below a bound. -/
def natBelow? (bound : Nat) : Value → Option Nat
  | .int n => if 0 ≤ n && n < bound then some n.toNat else none
  | _ => none

def word32? (v : Value) : Option UInt32 := (natBelow? UInt32.size v).map UInt32.ofNat

def word64? (v : Value) : Option UInt64 := (natBelow? UInt64.size v).map UInt64.ofNat

/-- A finite float; integers are taken as floats. -/
def float? : Value → Option Float
  | .int n => some (if n < 0 then -(Float.ofNat n.natAbs) else Float.ofNat n.natAbs)
  | .float x => if x.isFinite then some x else none
  | _ => none

def list? (d : Value → Option α) : Value → Option (List α)
  | .list vs => vs.mapM d
  | _ => none

def texts? : Value → Option (List String) := list? text?

def names? (v : Value) : Option NameSet := (texts? v).map .ofList

def path? (v : Value) : Option Path := (text? v).map Path.mk

def paths? (v : Value) : Option PathSet := (list? path? v).map .ofList

/-- A mapping; of equal keys the last one counts. -/
def map? (d : Value → Option α) : Value → Option (NameMap α)
  | .object fs => (fs.mapM fun f => (d f.2).map fun x => (f.1, x)).map .ofList
  | _ => none

/-- An object of plain values. -/
def manifest? (v : Value) : Option (NameMap Value) :=
  if v.isFinite then map? (fun w => some w.canonical) v else none

end AddonAtlas.Json
