import AddonAtlas.Decimal.Binary

/-!
The shortest decimal that reads back as a given float.

A decimal reads back when it lies in the interval of reals that round to the float, ends
included if the mantissa is even. Grids of powers of ten are tried from coarse to fine; on each
the two neighbours of the value are the only points that need a look.
-/

namespace AddonAtlas.Decimal

/-- The decimal `digits · 10^exponent`. -/
structure Scientific where
  digits : Nat
  exponent : Int
  deriving Repr, DecidableEq

/-- Four times the value and the ends of its interval over a common denominator. -/
structure Interval where
  low : Nat
  value : Nat
  high : Nat
  denominator : Nat
  closed : Bool

def Binary.interval (b : Binary) : Interval :=
  let up := scaleUp b.exponent
  { low := (4 * b.mantissa - if b.atPower then 1 else 2) * up
    value := 4 * b.mantissa * up
    high := (4 * b.mantissa + 2) * up
    denominator := 4 * scaleDown b.exponent
    closed := b.mantissa % 2 == 0 }

/-- Whether `n · 10^k` lies in an interval. -/
def Interval.contains (i : Interval) (n : Nat) (k : Int) : Bool :=
  let x := n * Nat.pow 10 k.toNat * i.denominator
  let s := Nat.pow 10 (-k).toNat
  if i.closed then i.low * s ≤ x && x ≤ i.high * s else i.low * s < x && x < i.high * s

/-- The point of the grid of `10^k` in the interval that is nearest to the value; of two equally
near ones the even one. -/
def Interval.nearest? (i : Interval) (k : Int) : Option Nat :=
  let num := i.value * Nat.pow 10 (-k).toNat
  let den := i.denominator * Nat.pow 10 k.toNat
  let n := num / den
  let below := decide (0 < n) && i.contains n k
  let above := i.contains (n + 1) k
  let twice := 2 * (num % den)
  if below && above then
    some (if twice < den then n else if den < twice then n + 1 else n + n % 2)
  else if below then some n
  else if above then some (n + 1)
  else none

/-- Try grids from `10^k` on downwards. -/
def Interval.search (i : Interval) : Nat → Int → Scientific
  | 0, k => ⟨0, k⟩
  | fuel + 1, k => match i.nearest? k with
    | some n => ⟨n, k⟩
    | none => search i fuel (k - 1)

/-- The number of decimal digits of a number, one for zero. -/
def digitCount (n : Nat) : Nat := (Nat.toDigits 10 n).length

/-- The shortest decimal for a positive float. -/
def Binary.shortest (b : Binary) : Scientific :=
  let i := b.interval
  let top : Int := (digitCount i.value : Int) - (digitCount i.denominator : Int) + 1
  i.search 25 top

/-- How floats are written: with a point where the exponent of the first digit lies in a range,
else with an exponent that always carries its sign. -/
structure Style where
  least : Int
  most : Int

/-- The text of a positive decimal. -/
def Scientific.write (s : Style) (d : Scientific) : String :=
  let ds := Nat.toDigits 10 d.digits
  let first := (ds.length : Int) - 1 + d.exponent
  if s.least ≤ first && first ≤ s.most then
    if d.exponent < 0 then
      let places := (-d.exponent).toNat
      let padded := List.replicate (places + 1 - ds.length) '0' ++ ds
      let n := padded.length - places
      String.ofList (padded.take n ++ '.' :: padded.drop n)
    else String.ofList (ds ++ List.replicate d.exponent.toNat '0') ++ ".0"
  else
    let tail := ds.drop 1
    let mantissa := ds.take 1 ++ if tail.isEmpty then [] else '.' :: tail
    String.ofList mantissa ++ "e" ++ (if first < 0 then "-" else "+") ++ toString first.natAbs

/-- Numbers in saved data: a point from 0.00001 up to below 10^16. -/
def dataStyle : Style := ⟨-5, 15⟩

/-- The shortest text that reads back as a finite float. -/
def writeShortest (s : Style) (x : Float) : String :=
  match parts x with
  | (n, .zero) => if n then "-0.0" else "0.0"
  | (n, .finite b) => (if n then "-" else "") ++ b.shortest.write s
  | (n, .infinite) => if n then "-inf" else "inf"
  | (_, .nan) => "NaN"

end AddonAtlas.Decimal
