import AddonAtlas.Text.Classes

/-!
Reading decimals as floats, rounded to nearest.
-/

namespace AddonAtlas.Decimal

open AddonAtlas.Text

/-- The float nearest to `digits · 10^exponent`. Exponents beyond all floats are cut off before
any power is formed. -/
def nearest (digits : List Char) (exponent : Int) : Float :=
  let n := ofDigits 10 digits
  let top := (digits.dropWhile (· == '0')).length + exponent
  if n = 0 then 0.0
  else if 400 < top then 1.0 / 0.0
  else if top < -400 then 0.0
  else Float.ofScientific n (exponent < 0) exponent.natAbs

/-- The exponent behind a mantissa. -/
def exponent? : List Char → Option Int
  | [] => some 0
  | c :: r =>
    if c = 'e' || c = 'E' then
      let (negative, ds) : Bool × List Char := match r with
        | '-' :: s => (true, s)
        | '+' :: s => (false, s)
        | s => (false, s)
      if ds.isEmpty || !ds.all Char.isDigit then none
      else
        let n : Int := ofDigits 10 ds
        some (if negative then -n else n)
    else none

/-- The float that a decimal without a sign writes: digits, perhaps a point among them, and perhaps
an exponent. -/
def readFloat? (cs : List Char) : Option Float :=
  let whole := cs.takeWhile Char.isDigit
  let rest := cs.drop whole.length
  let (places, tail) := match rest with
    | '.' :: r => (r.takeWhile Char.isDigit, r.dropWhile Char.isDigit)
    | r => ([], r)
  if whole.isEmpty && places.isEmpty then none
  else (exponent? tail).map fun e => nearest (whole ++ places) (e - places.length)

end AddonAtlas.Decimal
