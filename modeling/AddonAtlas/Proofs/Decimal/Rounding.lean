import AddonAtlas.Decimal.Fixed
import Mathlib.Algebra.Order.Ring.Nat
import Mathlib.Data.Int.Order.Basic

/-!
Rounding to a float.

A mantissa is rounded by shifting its bits out one by one and remembering the last of them and
whether there was one among the others. That is a division that rounds to nearest, a half going to
the even neighbour. The bits of a positive float are its exponent and its mantissa side by side,
and rounding up to the next power of two carries over from the one to the other, so that they are
one number.
-/

namespace AddonAtlas.Decimal

open Float.Model Float.Model.UnpackedFloat

variable {m n k d : Nat} {e : Int}

/-! ## Rounded quotients -/

lemma roundDiv_mul (n : Nat) (hd : 0 < d) : roundDiv (n * d) d = n := by
  rw [roundDiv]
  simp only [Nat.mul_mod_left, Nat.mul_zero, Nat.mul_div_cancel n hd]
  exact if_pos hd

/-- A fraction is rounded as its shortened form is. -/
lemma roundDiv_mul_right (n d : Nat) (hk : 0 < k) : roundDiv (n * k) (d * k) = roundDiv n d := by
  have hless : 2 * (n % d * k) < d * k ↔ 2 * (n % d) < d := by
    rw [← Nat.mul_assoc]
    exact Nat.mul_lt_mul_right hk
  have hmore : d * k < 2 * (n % d * k) ↔ d < 2 * (n % d) := by
    rw [← Nat.mul_assoc]
    exact Nat.mul_lt_mul_right hk
  rw [roundDiv, roundDiv, Nat.mul_div_mul_right n d hk, Nat.mul_mod_mul_right]
  simp only [hless, hmore]

lemma div_le_roundDiv (n d : Nat) : n / d ≤ roundDiv n d := by
  rw [roundDiv]
  split
  · rfl
  · split
    · exact Nat.le_succ _
    · exact Nat.le_add_right _ _

lemma roundDiv_le (n d : Nat) : roundDiv n d ≤ n / d + 1 := by
  rw [roundDiv]
  split
  · exact Nat.le_succ _
  · split
    · rfl
    · exact Nat.add_le_add_left (Nat.lt_succ_iff.1 (Nat.mod_lt _ (by decide))) _

lemma roundDiv_le_roundDiv (h : m ≤ n) (d : Nat) : roundDiv m d ≤ roundDiv n d := by
  rcases (Nat.div_le_div_right h : m / d ≤ n / d).lt_or_eq with hlt | heq
  · calc roundDiv m d ≤ m / d + 1 := roundDiv_le m d
      _ ≤ n / d := hlt
      _ ≤ roundDiv n d := div_le_roundDiv n d
  · have hm := Nat.div_add_mod m d
    have hn := Nat.div_add_mod n d
    rw [heq] at hm
    have hmod : m % d ≤ n % d := by omega
    rw [roundDiv, roundDiv, heq]
    split_ifs <;> omega

/-! ## Mantissas -/

/-- Bits shifted out of a mantissa: the last one, and whether there is one among the others. -/
lemma shiftRight_succ (m k : Nat) : (⟨m, false, false⟩ : ExtendedMantissa) >>> (k + 1) =
    ⟨m / 2 ^ (k + 1), m / 2 ^ k % 2 != 0, m % 2 ^ k != 0⟩ := by
  induction k with
  | zero =>
    change ExtendedMantissa.shiftRightOne ⟨m, false, false⟩ = _
    simp [ExtendedMantissa.shiftRightOne, Nat.mod_one]
  | succ k ih =>
    change ExtendedMantissa.shiftRightOne ((⟨m, false, false⟩ : ExtendedMantissa) >>> (k + 1)) = _
    rw [ih, ExtendedMantissa.shiftRightOne]
    have hpos : 0 < 2 ^ k := Nat.two_pow_pos k
    simp only [ExtendedMantissa.mk.injEq]
    refine ⟨by rw [Nat.div_div_eq_div_mul, ← Nat.pow_succ], trivial, ?_⟩
    rw [Bool.eq_iff_iff, Bool.or_eq_true, bne_iff_ne, bne_iff_ne, bne_iff_ne, Nat.mod_pow_succ]
    rcases Nat.mod_two_eq_zero_or_one (m / 2 ^ k) with hbit | hbit <;> rw [hbit] <;> omega

lemma roundedMantissa_mk (m : Nat) (last others : Bool) :
    (⟨m, last, others⟩ : ExtendedMantissa).roundedMantissa =
      if last then (if others then m + 1 else m + m % 2) else m := by
  cases last <;> cases others <;> rfl

/-- Shifting a mantissa and rounding it is a division. -/
lemma roundedMantissa_shiftRight (m k : Nat) :
    ((⟨m, false, false⟩ : ExtendedMantissa) >>> k).roundedMantissa = roundDiv m (2 ^ k) := by
  cases k with
  | zero =>
    rw [Nat.pow_zero, ← Nat.mul_one m, roundDiv_mul m (by decide), Nat.mul_one]
    rfl
  | succ k =>
    have hless : m % 2 ^ k < 2 ^ k := Nat.mod_lt m (Nat.two_pow_pos k)
    rw [shiftRight_succ, roundedMantissa_mk, roundDiv, Nat.mod_pow_succ]
    simp only [bne_iff_ne]
    rcases Nat.mod_two_eq_zero_or_one (m / 2 ^ k) with hbit | hbit <;> rw [hbit, Nat.pow_succ] <;>
      split_ifs <;> omega

/-! ## Floats from mantissas -/

/-- The bits of the infinite float. -/
def infiniteBits : Nat := 2047 * 2 ^ 52

lemma targetExponent_eq (e : Int) : Format.binary64.targetExponent e = max (e - 53) (-1074) := rfl

lemma shiftToTargetExponent_exact (h : m.log2 = 52 + k) (hmin : -1074 ≤ e + k) :
    shiftToTargetExponent Format.binary64 m e .exact =
      (ExtendedMantissa.mk m false false >>> k, e + k) := by
  have htarget : Format.binary64.targetExponent (totalExponent m e) = e + k := by
    rw [targetExponent_eq, totalExponent, h]
    omega
  have hshift : (e + k - e).toNat = k := by omega
  simp only [shiftToTargetExponent, htarget, shiftToExponent, hshift]
  rfl

/-- A mantissa rounded to 53 bits. -/
lemma roundDiv_bounds (h : m.log2 = 52 + k) :
    2 ^ 52 ≤ roundDiv m (2 ^ k) ∧ roundDiv m (2 ^ k) ≤ 2 ^ 53 := by
  have hm : m ≠ 0 := by
    rintro rfl
    simp at h
    omega
  have hlow : 2 ^ 52 * 2 ^ k ≤ m := by
    rw [← Nat.pow_add, ← h]
    exact Nat.log2_self_le hm
  have hhigh : m < 2 ^ 53 * 2 ^ k := by
    rw [← Nat.pow_add, show 53 + k = m.log2 + 1 by omega]
    exact Nat.lt_log2_self
  refine ⟨((Nat.le_div_iff_mul_le (Nat.two_pow_pos k)).2 hlow).trans (div_le_roundDiv m _), ?_⟩
  exact (roundDiv_le m _).trans (Nat.div_lt_of_lt_mul (by rwa [Nat.mul_comm]))

/-- Rounding a mantissa that is long enough. Rounding up can make it too long again. -/
lemma roundWithAccuracy_exact (h : m.log2 = 52 + k) (hmin : -1074 ≤ e + k) :
    ∃ (r : Nat) (j : Nat) (hr : 0 < r), roundWithAccuracy Format.binary64 .positive m e .exact =
      .finite .positive r (e + k + j) hr ∧
        2 ^ 52 ≤ r ∧ r < 2 ^ 53 ∧ j * 2 ^ 52 + r = roundDiv m (2 ^ k) := by
  obtain ⟨hlow, hhigh⟩ := roundDiv_bounds h
  unfold roundWithAccuracy
  rw [shiftToTargetExponent_exact h hmin]
  dsimp only
  rw [roundedMantissa_shiftRight]
  rcases hhigh.lt_or_eq with hlt | heq
  · have hlog : (roundDiv m (2 ^ k)).log2 = 52 + 0 := (Nat.log2_eq_iff (by omega)).2 ⟨hlow, hlt⟩
    rw [shiftToTargetExponent_exact hlog (by omega)]
    have hpos : 0 < roundDiv m (2 ^ k) := by omega
    exact ⟨roundDiv m (2 ^ k), 0, hpos, dif_neg hpos.ne', hlow, hlt, by omega⟩
  · have hlog : (2 ^ 53).log2 = 52 + 1 := Nat.log2_two_pow
    rw [heq, shiftToTargetExponent_exact hlog (by omega)]
    have hpos : 0 < 2 ^ 52 := by decide
    exact ⟨2 ^ 52, 1, hpos, dif_neg hpos.ne', by decide, by decide, by decide⟩

/-! ## Bits -/

lemma toNat_toBits_pack (u : UnpackedFloat) :
    (Float.Model.pack u).toBits.toNat = (UnpackedFloat.pack Format.binary64 u).toNat := rfl

lemma toNat_packComponents (exponent : BitVec 11) (mantissa : BitVec 52) :
    (packComponents Format.binary64 .positive exponent mantissa).toNat =
      exponent.toNat * 2 ^ 52 + mantissa.toNat := by
  have hsign : (Sign.positive.toBitVec ++ exponent).toNat = exponent.toNat := by
    rw [BitVec.toNat_append, ← Nat.shiftLeft_add_eq_or_of_lt exponent.isLt]
    simp [Sign.toBitVec]
  have happend : (packComponents Format.binary64 .positive exponent mantissa).toNat =
      (Sign.positive.toBitVec ++ exponent).toNat <<< 52 ||| mantissa.toNat := BitVec.toNat_append ..
  rw [happend, hsign, ← Nat.shiftLeft_add_eq_or_of_lt mantissa.isLt, Nat.shiftLeft_eq]

/-- A float is packed without the first bit of its mantissa, or is infinite. -/
lemma pack_finite (hm : 0 < m) :
    UnpackedFloat.pack Format.binary64 (.finite .positive m e hm) =
      if 2 ^ 11 ≤ (e + 1023 + 52).toNat + 1 then packedInfinity Format.binary64 .positive
      else if m.log2 + 1 = 53 then
        packComponents Format.binary64 .positive (.ofNat 11 (e + 1023 + 52).toNat) (.ofNat 52 m)
      else packComponents Format.binary64 .positive 0#11 (.ofNat 52 m) := rfl

/-- The bits of a float are its exponent and its mantissa, the latter carrying over to the former.
-/
lemma toNat_toBits_pack_finite (hm : 0 < m) (hlow : 2 ^ 52 ≤ m) (hhigh : m < 2 ^ 53)
    (hmin : -1074 ≤ e) :
    (Float.Model.pack (.finite .positive m e hm)).toBits.toNat =
      min ((e + 1074).toNat * 2 ^ 52 + m) infiniteBits := by
  have hlog : m.log2 = 52 := (Nat.log2_eq_iff hm.ne').2 ⟨hlow, hhigh⟩
  have hbias : (e + 1023 + 52).toNat = (e + 1074).toNat + 1 := by omega
  rw [toNat_toBits_pack, pack_finite hm, hlog, hbias, if_pos (rfl : 52 + 1 = 53), infiniteBits]
  split
  · rename_i hlarge
    have hinfinite : (packedInfinity Format.binary64 .positive).toNat = 2047 * 2 ^ 52 := rfl
    rw [hinfinite]
    omega
  · rename_i hsmall
    rw [toNat_packComponents, BitVec.toNat_ofNat, BitVec.toNat_ofNat]
    omega

/-- The bits of a rounded mantissa. -/
lemma toNat_toBits_roundWithAccuracy (h : m.log2 = 52 + k) (hmin : -1074 ≤ e + k) :
    (Float.Model.pack (roundWithAccuracy Format.binary64 .positive m e .exact)).toBits.toNat =
      min ((e + k + 1074).toNat * 2 ^ 52 + roundDiv m (2 ^ k)) infiniteBits := by
  obtain ⟨r, j, hr, heq, hlow, hhigh, hcarry⟩ := roundWithAccuracy_exact h hmin
  have hexponent : (e + k + j + 1074).toNat = (e + k + 1074).toNat + j := by omega
  rw [heq, toNat_toBits_pack_finite hr hlow hhigh (by omega), hexponent, ← hcarry, Nat.add_mul,
    Nat.add_assoc]

/-! ## Floats from bits -/

variable {x : Float.Model}

lemma toNat_fields (x : Float.Model) :
    (@unpackExponent Format.binary64 x.toBits.toBitVec).toNat = x.toBits.toNat / 2 ^ 52 % 2048 ∧
      (@unpackMantissa Format.binary64 x.toBits.toBitVec).toNat = x.toBits.toNat % 2 ^ 52 ∧
      (@unpackSign Format.binary64 x.toBits.toBitVec).toNat = x.toBits.toNat / 2 ^ 63 % 2 := by
  have hfield (high low : Nat) : (x.toBits.toBitVec.extractLsb high low).toNat =
      x.toBits.toNat / 2 ^ low % 2 ^ (high - low + 1) := by
    rw [BitVec.extractLsb_toNat, Nat.shiftRight_eq_div_pow]
    rfl
  exact ⟨hfield 62 52, (hfield 51 0).trans (by rw [Nat.pow_zero, Nat.div_one]), hfield 63 63⟩

lemma eq_of_toNat_toBits_eq {x y : Float.Model} (h : x.toBits.toNat = y.toBits.toNat) : x = y := by
  obtain ⟨a, ha⟩ := x
  obtain ⟨b, hb⟩ := y
  obtain rfl : a = b := UInt64.toNat_inj.1 h
  rfl

lemma unpack_of_bits_zero (h : x.toBits.toNat = 0) : x.unpack = .zero .positive := by
  obtain rfl : x = Float.Model.pack (.zero .positive) := eq_of_toNat_toBits_eq h
  rfl

lemma unpack_of_bits_infinite (h : x.toBits.toNat = infiniteBits) :
    x.unpack = .infinity .positive := by
  obtain rfl : x = Float.Model.pack (.infinity .positive) := eq_of_toNat_toBits_eq h
  rfl

lemma finite_congr {s s' : Sign} {m m' : Nat} {e e' : Int} (hm : 0 < m) (hs : s = s')
    (hmantissa : m = m') (he : e = e') :
    UnpackedFloat.finite s m e hm = .finite s' m' e' (hmantissa ▸ hm) := by
  subst hs hmantissa he
  rfl

lemma unpack_of_bits (hlow : 2 ^ 52 ≤ x.toBits.toNat) (hhigh : x.toBits.toNat < infiniteBits) :
    ∃ hm, x.unpack = .finite .positive (2 ^ 52 + x.toBits.toNat % 2 ^ 52)
      ((x.toBits.toNat / 2 ^ 52 : Nat) - 1075) hm := by
  obtain ⟨hexponent, hmantissa, hsign⟩ := toNat_fields x
  rw [infiniteBits] at hhigh
  have hmax : @unpackExponent Format.binary64 x.toBits.toBitVec ≠ -1#11 := by
    intro h
    rw [h] at hexponent
    have hall : (-1#11).toNat = 2047 := rfl
    omega
  have hzero : @unpackExponent Format.binary64 x.toBits.toBitVec ≠ 0#11 := by
    intro h
    rw [h] at hexponent
    have hnone : (0#11).toNat = 0 := rfl
    omega
  have hpositive : Sign.ofBitVec (@unpackSign Format.binary64 x.toBits.toBitVec) = .positive := by
    refine if_pos (BitVec.eq_of_toNat_eq (hsign.trans ?_))
    have hnone : (0#1).toNat = 0 := rfl
    omega
  have himplicit : (1#1 ++ @unpackMantissa Format.binary64 x.toBits.toBitVec).toNat =
      2 ^ 52 + x.toBits.toNat % 2 ^ 52 := by
    rw [BitVec.toNat_append, ← Nat.shiftLeft_add_eq_or_of_lt (BitVec.isLt _), hmantissa]
    rfl
  have hbias : ((@unpackExponent Format.binary64 x.toBits.toBitVec).toNat : Int) -
      (Format.binary64.exponentBias + Format.binary64.mantissaBitsWithoutImplicit) =
        (x.toBits.toNat / 2 ^ 52 : Nat) - 1075 := by
    have hconstant : Format.binary64.exponentBias = 1023 := rfl
    rw [hexponent, hconstant]
    dsimp only
    omega
  exact ⟨by omega, (if_neg hmax).trans ((if_neg hzero).trans
    (finite_congr _ hpositive himplicit hbias))⟩

/-! ## Finite floats and their order -/

/-- Bits of zero, of a positive number that is not too small, or of the infinite float. -/
def IsPlain (b : Nat) : Prop := b = 0 ∨ 2 ^ 52 ≤ b ∧ b ≤ infiniteBits

lemma IsPlain.cases {b : Nat} (h : IsPlain b) :
    b = 0 ∨ (2 ^ 52 ≤ b ∧ b < infiniteBits) ∨ b = infiniteBits := by
  rcases h with h | ⟨hlow, hhigh⟩
  · exact .inl h
  · exact .inr (hhigh.lt_or_eq.imp_left fun hlt => ⟨hlow, hlt⟩)

lemma isFinite_iff (h : IsPlain x.toBits.toNat) :
    x.isFinite = true ↔ x.toBits.toNat < infiniteBits := by
  rw [Float.Model.isFinite]
  rcases h.cases with hzero | ⟨hlow, hhigh⟩ | hinfinite
  · rw [unpack_of_bits_zero hzero, hzero]
    exact iff_of_true rfl (by decide)
  · obtain ⟨hm, hx⟩ := unpack_of_bits hlow hhigh
    rw [hx]
    exact iff_of_true rfl hhigh
  · rw [unpack_of_bits_infinite hinfinite, hinfinite]
    exact iff_of_false (by decide) (lt_irrefl _)

/-- Positive numbers compare first by their exponents and then by their mantissas. -/
lemma compare_finite {m' : Nat} {e' : Int} (hm : 0 < m) (hm' : 0 < m') :
    (UnpackedFloat.finite .positive m e hm).compare (.finite .positive m' e' hm') =
      some ((compare e e').then (compare m m')) := rfl

lemma compare_of_bits {y : Float.Model} (hx : 2 ^ 52 ≤ x.toBits.toNat)
    (hx' : x.toBits.toNat < infiniteBits) (hy : 2 ^ 52 ≤ y.toBits.toNat)
    (hy' : y.toBits.toNat < infiniteBits) :
    x.unpack.compare y.unpack = some .lt ↔ x.toBits.toNat < y.toBits.toNat := by
  obtain ⟨hm, hunpack⟩ := unpack_of_bits hx hx'
  obtain ⟨hm', hunpack'⟩ := unpack_of_bits hy hy'
  rw [hunpack, hunpack', compare_finite hm hm', Option.some_inj, Ordering.then_eq_lt,
    compare_lt_iff_lt, compare_eq_iff_eq, compare_lt_iff_lt]
  omega

/-- Floats compare as their bits do. -/
lemma lt_iff_toNat_toBits_lt {y : Float.Model} (hx : IsPlain x.toBits.toNat)
    (hy : IsPlain y.toBits.toNat) : x < y ↔ x.toBits.toNat < y.toBits.toNat := by
  change x.unpack.lt y.unpack = true ↔ _
  rw [UnpackedFloat.lt, beq_iff_eq]
  have hpos : 0 < infiniteBits := by decide
  rcases hx.cases with hx | ⟨hx, hx'⟩ | hx
  · rw [unpack_of_bits_zero hx, hx]
    rcases hy.cases with hy | ⟨hy, hy'⟩ | hy
    · rw [unpack_of_bits_zero hy, hy]
      decide
    · obtain ⟨hm, hunpack⟩ := unpack_of_bits hy hy'
      rw [hunpack]
      exact iff_of_true rfl (by omega)
    · rw [unpack_of_bits_infinite hy, hy]
      exact iff_of_true rfl hpos
  · rcases hy.cases with hy | ⟨hy, hy'⟩ | hy
    · obtain ⟨hm, hunpack⟩ := unpack_of_bits hx hx'
      rw [hunpack, unpack_of_bits_zero hy, hy]
      exact iff_of_false (fun h => nomatch h) (Nat.not_lt_zero _)
    · exact compare_of_bits hx hx' hy hy'
    · obtain ⟨hm, hunpack⟩ := unpack_of_bits hx hx'
      rw [hunpack, unpack_of_bits_infinite hy, hy]
      exact iff_of_true rfl hx'
  · rw [unpack_of_bits_infinite hx, hx]
    have hnot : ¬ infiniteBits < y.toBits.toNat := by
      rcases hy with hy | ⟨-, hy⟩ <;> omega
    refine iff_of_false ?_ hnot
    rcases hy.cases with hy | ⟨hy, hy'⟩ | hy
    · rw [unpack_of_bits_zero hy]
      exact fun h => nomatch h
    · obtain ⟨hm, hunpack⟩ := unpack_of_bits hy hy'
      rw [hunpack]
      exact fun h => nomatch h
    · rw [unpack_of_bits_infinite hy]
      exact fun h => nomatch h

end AddonAtlas.Decimal
