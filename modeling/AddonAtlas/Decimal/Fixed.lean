import AddonAtlas.Decimal.Binary

/-!
Floats with a fixed number of decimal places.
-/

namespace AddonAtlas.Decimal

/-- The nearest natural number to a fraction, a half going to the even neighbour. -/
def roundDiv (num den : Nat) : Nat :=
  let q := num / den
  let twice := 2 * (num % den)
  if twice < den then q else if den < twice then q + 1 else q + q % 2

/-- A number of units of `10^-places` as text. -/
def writeUnits (places units : Nat) : String :=
  let ds := Nat.toDigits 10 units
  let padded := List.replicate (places + 1 - ds.length) '0' ++ ds
  let n := padded.length - places
  String.ofList (padded.take n) ++
    (if places = 0 then "" else "." ++ String.ofList (padded.drop n))

/-- The text of a float with a fixed number of places. -/
def writeFixed (places : Nat) (x : Float) : String :=
  let sign (n : Bool) : String := if n then "-" else ""
  match parts x with
  | (n, .zero) => sign n ++ writeUnits places 0
  | (n, .finite b) =>
    let units :=
      roundDiv (b.mantissa * scaleUp b.exponent * Nat.pow 10 places) (scaleDown b.exponent)
    sign n ++ writeUnits places units
  | (n, .infinite) => sign n ++ "inf"
  | (_, .nan) => "NaN"

end AddonAtlas.Decimal
