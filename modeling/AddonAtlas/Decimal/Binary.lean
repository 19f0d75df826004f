/-!
Floating-point numbers as exact fractions.
-/

namespace AddonAtlas.Decimal

/-- A positive finite number `mantissa · 2^exponent`. -/
structure Binary where
  mantissa : Nat
  exponent : Int
  /-- The number below lies half as far away as the number above. -/
  atPower : Bool

inductive Parts
  | zero
  | finite (b : Binary)
  | infinite
  | nan

/-- The sign and the magnitude of a float. -/
def parts (x : Float) : Bool × Parts :=
  let bits := x.toBits.toNat
  let negative : Bool := bits / Nat.pow 2 63 == 1
  let e : Nat := bits / Nat.pow 2 52 % 2048
  let f : Nat := bits % Nat.pow 2 52
  let magnitude : Parts :=
    if e = 2047 then (if f = 0 then .infinite else .nan)
    else if e = 0 then (if f = 0 then .zero else .finite ⟨f, -1074, false⟩)
    else .finite ⟨f + Nat.pow 2 52, (e : Int) - 1075, f = 0 && e ≠ 1⟩
  (negative, magnitude)

/-- `2^e` for a non-negative exponent, one for a negative one. -/
def scaleUp (e : Int) : Nat := Nat.pow 2 e.toNat

/-- `2^-e` for a negative exponent, one for a non-negative one. -/
def scaleDown (e : Int) : Nat := Nat.pow 2 (-e).toNat

end AddonAtlas.Decimal
