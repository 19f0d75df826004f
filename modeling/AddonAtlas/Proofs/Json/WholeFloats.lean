import AddonAtlas.Proofs.Decimal.WholeText
import AddonAtlas.Proofs.Json.Numbers

/-!
Whole floats read back from their text.

The text of a whole float ends in a point and a zero, which are read by taking the zero for another
digit of the number and dividing by ten. The float comes back as long as the tenfold of the number
needs no rounding. Beyond this it need not.
-/

namespace AddonAtlas.Json

open AddonAtlas.Decimal AddonAtlas.Text

variable {n : Nat}

/-- A number with a point and a zero behind it is read as a tenth of its tenfold. -/
lemma number_toDigits_point (hn : n ≠ 0) (h : 10 * n < 2 ^ 64) :
    number (Nat.toDigits 10 n ++ ['.', '0']) =
      some (.float (Float.ofNat (10 * n) / Float.ofScientific 1 false 1), []) := by
  have hminus :
      minus (Nat.toDigits 10 n ++ ['.', '0']) = (false, Nat.toDigits 10 n ++ ['.', '0']) := by
    rw [minus_append Nat.toDigits_ne_nil, minus_toDigits]
  have hwhole : whole? (Nat.toDigits 10 n ++ ['.', '0']) = some (Nat.toDigits 10 n, ['.', '0']) :=
    whole?_append (whole?_toDigits n) fun c hc => Option.some.inj hc ▸ rfl
  have hplaces : places? ['.', '0'] = some (some ['0'], []) := by decide
  have hcollect : collect n ['0'] = (10 * n, []) := by
    have htenfold : n * 10 + digitValue '0' = 10 * n := Nat.mul_comm n 10
    have hfits : ¬ largest < 10 * n := Nat.not_lt.2 (Nat.le_sub_one_of_lt h)
    rw [collect, htenfold]
    exact if_neg hfits
  have htenth : scaled (10 * n) (-1) = Float.ofNat (10 * n) / Float.ofScientific 1 false 1 := rfl
  have hparts : ofParts false (Nat.toDigits 10 n) (some ['0']) none =
      .float (scaled (10 * n) (-1)) := by
    simp [ofParts, collect_toDigits (n := n) (by omega), hcollect, hn]
  simp only [number, hminus, hwhole, hplaces, exponent?, hparts, htenth,
    Option.bind_eq_bind, Option.bind_some]

/-- A whole float is read back from its text as a tenth of its tenfold. -/
lemma number_scalar_ofNat (hn : n ≠ 0) (h : n < 2 ^ 52) :
    number (scalar (.float (Float.ofNat n))).toList =
      some (.float (Float.ofNat (10 * n) / Float.ofScientific 1 false 1), []) := by
  have hfinite : (Float.ofNat n).isFinite = true :=
    isFinite_ofNat_iff.2 (h.trans (by decide +kernel))
  have htext : (scalar (.float (Float.ofNat n))).toList = Nat.toDigits 10 n ++ ['.', '0'] := by
    rw [scalar, if_pos hfinite, writeShortest_ofNat hn h, String.toList_append,
      String.toList_ofList]
    rfl
  rw [htext, number_toDigits_point hn (by omega)]

/-- A whole float comes back if the tenfold of its number has at most 54 bits. -/
lemma roundTrips_ofNat (h : 10 * n ≤ 2 ^ 54) : RoundTrips (Float.ofNat n) := by
  rcases Nat.eq_zero_or_pos n with rfl | hn
  · exact ⟨by decide, by with_unfolding_all rfl⟩
  · refine ⟨isFinite_ofNat_iff.2 (lt_of_le_of_lt (by omega : n ≤ 2 ^ 54) (by decide +kernel)), ?_⟩
    rw [number_scalar_ofNat hn.ne' (by omega), ofNat_ten_mul_div_ten hn.ne' h]

end AddonAtlas.Json
