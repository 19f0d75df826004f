/-!
Averages of measured values. No values give zero.
-/

namespace AddonAtlas.Metric

/-- The place of a float in the total order of all floats, negative zero below zero. -/
def rank (x : Float) : Int :=
  let bits : Nat := x.toBits.toNat
  if bits < UInt64.size / 2 then bits else UInt64.size / 2 - 1 - bits

/-- The middle value, or the mean of the two middle ones. -/
def median (values : List Float) : Float :=
  let sorted := values.mergeSort fun a b => rank a ≤ rank b
  let mid := sorted.length / 2
  if sorted.isEmpty then 0.0
  else if sorted.length % 2 = 0 then (sorted.getD (mid - 1) 0.0 + sorted.getD mid 0.0) / 2.0
  else sorted.getD mid 0.0

/-- The geometric mean of the positive values. -/
def geometricMean (values : List Float) : Float :=
  let positive := values.filter (0.0 < ·)
  if positive.isEmpty then 0.0
  else
    let sum := positive.foldl (fun s v => s + v.log) 0.0
    (sum / Float.ofNat positive.length).exp

end AddonAtlas.Metric
