import AddonAtlas.Decimal.Read
import AddonAtlas.Proofs.Decimal.Rounding
import Mathlib.Order.Lattice
import Mathlib.Tactic.Ring

/-!
Floats of natural numbers.

The bits of the float that is nearest to a natural number have a closed form, which is monotone in
the number. So floats of larger numbers are never smaller, and which numbers are too large to have
a finite float can be read off. Numbers of up to 53 bits are floats themselves.
-/

namespace AddonAtlas.Decimal

open Float.Model Float.Model.UnpackedFloat AddonAtlas.Text

variable {m n k : Nat} {ds : List Char}

/-- The bits of the float nearest to a natural number. -/
def wholeBits (n : Nat) : Nat :=
  if n = 0 then 0
  else min ((n.log2 + 1022) * 2 ^ 52 + roundDiv (n * 2 ^ 53) (2 ^ (n.log2 + 1))) infiniteBits

lemma log2_mul_two_pow (hn : n ≠ 0) (k : Nat) : (n * 2 ^ k).log2 = n.log2 + k := by
  have hpos : 0 < 2 ^ k := Nat.two_pow_pos k
  refine (Nat.log2_eq_iff (Nat.mul_ne_zero hn hpos.ne')).2 ⟨?_, ?_⟩
  · rw [Nat.pow_add]
    exact Nat.mul_le_mul_right _ (Nat.log2_self_le hn)
  · rw [Nat.add_right_comm, Nat.pow_add]
    exact Nat.mul_lt_mul_of_pos_right Nat.lt_log2_self hpos

/-- A mantissa whose value is a natural number is rounded to the float nearest to this number. -/
lemma toNat_toBits_round (hn : n ≠ 0) (hk : 52 ≤ n.log2 + k) :
    (Float.Model.pack
      (roundWithAccuracy Format.binary64 .positive (n * 2 ^ k) (-k) .exact)).toBits.toNat =
      wholeBits n := by
  obtain ⟨j, hj⟩ := Nat.exists_eq_add_of_le hk
  have hlog : (n * 2 ^ k).log2 = 52 + j := by rw [log2_mul_two_pow hn, hj]
  have hexponent : (-(k : Int) + j + 1074).toNat = n.log2 + 1022 := by omega
  have hquotient : roundDiv (n * 2 ^ k) (2 ^ j) = roundDiv (n * 2 ^ 53) (2 ^ (n.log2 + 1)) := by
    rcases Nat.le_total 53 k with hlong | hshort
    · obtain ⟨i, rfl⟩ := Nat.exists_eq_add_of_le hlong
      rw [show j = n.log2 + 1 + i by omega, Nat.pow_add 2 53, Nat.pow_add 2 (n.log2 + 1),
        ← Nat.mul_assoc, roundDiv_mul_right _ _ (Nat.two_pow_pos i)]
    · obtain ⟨i, hi⟩ := Nat.exists_eq_add_of_le hshort
      rw [hi, show n.log2 + 1 = j + i by omega, Nat.pow_add 2 k, Nat.pow_add 2 j, ← Nat.mul_assoc,
        roundDiv_mul_right _ _ (Nat.two_pow_pos i)]
  rw [toNat_toBits_roundWithAccuracy hlog (by omega), hexponent, hquotient, wholeBits, if_neg hn]

/-! ## Numbers that need no rounding -/

/-- The mantissa of a number that needs no rounding. -/
lemma mantissa_bounds (hn : n ≠ 0) (hm : n * 2 ^ 53 = m * 2 ^ (n.log2 + 1)) :
    2 ^ 52 ≤ m ∧ m < 2 ^ 53 := by
  have hpos : 0 < 2 ^ (n.log2 + 1) := Nat.two_pow_pos _
  constructor
  · refine Nat.le_of_mul_le_mul_right ?_ hpos
    calc 2 ^ 52 * 2 ^ (n.log2 + 1) = 2 ^ n.log2 * 2 ^ 53 := by ring
      _ ≤ n * 2 ^ 53 := Nat.mul_le_mul_right _ (Nat.log2_self_le hn)
      _ = m * 2 ^ (n.log2 + 1) := hm
  · refine Nat.lt_of_mul_lt_mul_right (a := 2 ^ (n.log2 + 1)) ?_
    calc m * 2 ^ (n.log2 + 1) = n * 2 ^ 53 := hm.symm
      _ < 2 ^ (n.log2 + 1) * 2 ^ 53 := Nat.mul_lt_mul_of_pos_right Nat.lt_log2_self (by decide)
      _ = 2 ^ 53 * 2 ^ (n.log2 + 1) := Nat.mul_comm _ _

lemma wholeBits_of_exact (hn : n ≠ 0) (hlog : n.log2 < 1024)
    (hm : n * 2 ^ 53 = m * 2 ^ (n.log2 + 1)) : wholeBits n = (n.log2 + 1022) * 2 ^ 52 + m := by
  obtain ⟨-, hhigh⟩ := mantissa_bounds hn hm
  rw [wholeBits, if_neg hn, hm, roundDiv_mul _ (Nat.two_pow_pos _), infiniteBits]
  omega

/-- The float of a number that needs no rounding has this number as its value. -/
lemma unpack_of_wholeBits {x : Float.Model} (hn : n ≠ 0) (hlog : n.log2 < 1024)
    (hm : n * 2 ^ 53 = m * 2 ^ (n.log2 + 1)) (hx : x.toBits.toNat = wholeBits n) :
    ∃ hpos, x.unpack = .finite .positive m (n.log2 - 52) hpos := by
  obtain ⟨hlow, hhigh⟩ := mantissa_bounds hn hm
  rw [wholeBits_of_exact hn hlog hm] at hx
  obtain ⟨hpos, hunpack⟩ := unpack_of_bits (x := x) (by omega) (by rw [infiniteBits]; omega)
  have hmantissa : 2 ^ 52 + x.toBits.toNat % 2 ^ 52 = m := by omega
  have hexponent : ((x.toBits.toNat / 2 ^ 52 : Nat) - 1075 : Int) = n.log2 - 52 := by omega
  exact ⟨_, hunpack.trans (finite_congr hpos rfl hmantissa hexponent)⟩

/-- A number of up to 53 bits needs no rounding. -/
lemma exact_of_lt (hn : n ≠ 0) (h : n < 2 ^ 53) :
    n.log2 < 53 ∧ n * 2 ^ 53 = n * 2 ^ (52 - n.log2) * 2 ^ (n.log2 + 1) := by
  have hlog : n.log2 < 53 := (Nat.log2_lt hn).2 h
  refine ⟨hlog, ?_⟩
  rw [Nat.mul_assoc, ← Nat.pow_add]
  congr 2
  omega

/-! ## The bits of a natural number -/

/-- A number of more than 53 bits is rounded. -/
lemma toNat_toBits_of_le (h : 2 ^ 53 ≤ n) : (Float.ofNat n).toBits.toNat = wholeBits n := by
  have hn : n ≠ 0 := by omega
  have hrange : ¬ (0 : Int) < -((2 ^ Format.binary64.exponentBits : Int) + n.log2) := by
    have hbits : (2 ^ Format.binary64.exponentBits : Int) = 2048 := rfl
    omega
  have hround :
      Float.ofNat n = .ofModel (Float.Model.pack (roundWithAccuracy Format.binary64 .positive
      (n <<< 53 * 10 ^ (0 : Int).toNat) (-(53 : Nat)) .exact)) := by
    change Float.ofScientific n false 0 = _
    rw [Float.ofScientific, dif_neg (by omega)]
    change Float.ofModel (Float.Model.pack (UnpackedFloat.ofScientific Format.binary64 n 0)) = _
    rw [UnpackedFloat.ofScientific, dif_neg hn, if_neg (by decide), if_neg hrange,
      if_pos (by decide)]
    rfl
  have hone : 10 ^ (0 : Int).toNat = 1 := rfl
  rw [hround, hone, Nat.mul_one, Nat.shiftLeft_eq]
  exact toNat_toBits_round hn (by omega)

lemma toNat_toBits_ofUInt64 (hn : n ≠ 0) (h : n < 2 ^ 53) :
    n.toUInt64.toFloat.toBits.toNat = wholeBits n := by
  have hlog : n.log2 < 53 := (Nat.log2_lt hn).2 h
  have hword : n.toUInt64.toNat = n := Nat.mod_eq_of_lt (by omega)
  have htarget : Format.binary64.targetExponent (totalExponent n 0) = n.log2 - 52 := by
    rw [targetExponent_eq, totalExponent]
    omega
  have hshift : (0 - ((n.log2 : Int) - 52)).toNat = 52 - n.log2 := by omega
  have hround : n.toUInt64.toFloat = .ofModel (Float.Model.pack (roundWithAccuracy Format.binary64
      .positive (n * 2 ^ (52 - n.log2)) (0 - (52 - n.log2 : Nat)) .exact)) := by
    change Float.ofModel (Float.Model.pack (UnpackedFloat.ofNat Format.binary64 n.toUInt64.toNat)) =
      _
    rw [hword, UnpackedFloat.ofNat, UnpackedFloat.ofInt, UnpackedFloat.normalize,
      Int.compare_eq_gt.2 (by omega)]
    dsimp only
    rw [UnpackedFloat.round, Int.toNat_natCast, htarget, decreaseExponent, hshift, Nat.shiftLeft_eq]
  rw [hround, Int.zero_sub]
  exact toNat_toBits_round hn (by omega)

/-- A number of up to 53 bits is multiplied by one. -/
lemma toNat_toBits_of_lt (hn : n ≠ 0) (h : n < 2 ^ 53) :
    (Float.ofNat n).toBits.toNat = wholeBits n := by
  have hround : Float.ofNat n = .ofModel (Float.Model.pack (UnpackedFloat.mul Format.binary64
      n.toUInt64.toFloat.toModel.unpack (Float.ofBits 0x3FF0000000000000).toModel.unpack)) := by
    change Float.ofScientific n false 0 = _
    rw [Float.ofScientific, dif_pos ⟨h, by decide⟩]
    rfl
  have hone : (Float.ofBits 0x3FF0000000000000).toModel.unpack =
      .finite .positive (2 ^ 52) (-(52 : Nat)) (by decide) := rfl
  obtain ⟨hlog, hexact⟩ := exact_of_lt hn h
  obtain ⟨hm, hunpack⟩ :=
    unpack_of_wholeBits hn (by omega) hexact (toNat_toBits_ofUInt64 hn h)
  have hexponent : ((n.log2 : Int) - 52 + -(52 : Nat)) = -(52 - n.log2 + 52 : Nat) := by omega
  rw [hround, hunpack, hone]
  change (Float.Model.pack (roundWithAccuracy Format.binary64 .positive
    (n * 2 ^ (52 - n.log2) * 2 ^ 52) (n.log2 - 52 + -(52 : Nat)) .exact)).toBits.toNat = _
  rw [Nat.mul_assoc, ← Nat.pow_add, hexponent]
  exact toNat_toBits_round hn (by omega)

/-- The bits of the float of a natural number. -/
lemma toNat_toBits_ofNat (n : Nat) : (Float.ofNat n).toBits.toNat = wholeBits n := by
  rcases Nat.eq_zero_or_pos n with rfl | hn
  · decide
  · rcases Nat.lt_or_ge n (2 ^ 53) with hsmall | hlarge
    · exact toNat_toBits_of_lt hn.ne' hsmall
    · exact toNat_toBits_of_le hlarge

/-! ## Order -/

lemma float_eq_of_toNat_toBits_eq {x y : Float} (h : x.toBits.toNat = y.toBits.toNat) : x = y :=
  congrArg Float.ofModel (eq_of_toNat_toBits_eq h)

lemma isPlain_wholeBits (n : Nat) : IsPlain (wholeBits n) := by
  rw [wholeBits, IsPlain, infiniteBits]
  split
  · exact .inl rfl
  · exact .inr ⟨by omega, min_le_right _ _⟩

lemma isPlain_ofNat (n : Nat) : IsPlain (Float.ofNat n).toModel.toBits.toNat :=
  toNat_toBits_ofNat n ▸ isPlain_wholeBits n

/-- Floats of larger numbers are not smaller. -/
lemma wholeBits_le_wholeBits (h : m ≤ n) : wholeBits m ≤ wholeBits n := by
  rcases Nat.eq_zero_or_pos m with rfl | hm
  · exact Nat.zero_le _
  have hn : 0 < n := hm.trans_le h
  have hmantissa {n : Nat} (hn : 0 < n) : (n * 2 ^ 53).log2 = 52 + (n.log2 + 1) := by
    rw [log2_mul_two_pow hn.ne']
    omega
  obtain ⟨-, hhigh⟩ := roundDiv_bounds (hmantissa hm)
  obtain ⟨hlow, -⟩ := roundDiv_bounds (hmantissa hn)
  rw [wholeBits, wholeBits, if_neg hm.ne', if_neg hn.ne']
  refine min_le_min_right _ ?_
  have hlog : m.log2 ≤ n.log2 := (Nat.le_log2 hn.ne').2 ((Nat.log2_self_le hm.ne').trans h)
  rcases hlog.lt_or_eq with hlt | heq
  · omega
  · rw [heq]
    exact Nat.add_le_add_left (roundDiv_le_roundDiv (Nat.mul_le_mul_right _ h) _) _

lemma wholeBits_lt_infiniteBits_iff : wholeBits n < infiniteBits ↔ n < 2 ^ 1024 - 2 ^ 970 := by
  have hlast : wholeBits (2 ^ 1024 - 2 ^ 970 - 1) < infiniteBits := by decide +kernel
  have hfirst : wholeBits (2 ^ 1024 - 2 ^ 970) = infiniteBits := by decide +kernel
  constructor
  · intro h
    by_contra hle
    have hmono := wholeBits_le_wholeBits (Nat.not_lt.1 hle)
    omega
  · intro h
    exact (wholeBits_le_wholeBits (Nat.le_sub_one_of_lt h)).trans_lt hlast

/-- The float of a number is finite just if the number is not too large. -/
lemma isFinite_ofNat_iff : (Float.ofNat n).isFinite = true ↔ n < 2 ^ 1024 - 2 ^ 970 := by
  have hfinite := isFinite_iff (isPlain_ofNat n)
  rw [show (Float.ofNat n).toModel.toBits.toNat = _ from toNat_toBits_ofNat n,
    wholeBits_lt_infiniteBits_iff] at hfinite
  exact hfinite

lemma ofNat_lt_ofNat_iff : Float.ofNat m < Float.ofNat n ↔ wholeBits m < wholeBits n := by
  have hlt := lt_iff_toNat_toBits_lt (isPlain_ofNat m) (isPlain_ofNat n)
  rw [show (Float.ofNat m).toModel.toBits.toNat = _ from toNat_toBits_ofNat m,
    show (Float.ofNat n).toModel.toBits.toNat = _ from toNat_toBits_ofNat n] at hlt
  exact decide_eq_true_iff.trans hlt

/-- The larger one of two floats is the float of the larger number. -/
lemma ofNat_max (m n : Nat) : Float.ofNat (max m n) =
    if Float.ofNat m < Float.ofNat n then Float.ofNat n else Float.ofNat m := by
  rcases Nat.le_total m n with hle | hle
  · rw [Nat.max_eq_right hle]
    split
    · rfl
    · rename_i hnot
      have hmono := wholeBits_le_wholeBits hle
      rw [ofNat_lt_ofNat_iff] at hnot
      refine float_eq_of_toNat_toBits_eq ?_
      rw [toNat_toBits_ofNat, toNat_toBits_ofNat]
      omega
  · have hmono := wholeBits_le_wholeBits hle
    rw [Nat.max_eq_left hle, if_neg (ofNat_lt_ofNat_iff.not.2 (Nat.not_lt.2 hmono))]

/-- The exact value of the float of a number of up to 53 bits. -/
lemma parts_ofNat (hn : n ≠ 0) (h : n < 2 ^ 53) : ∃ atPower, parts (Float.ofNat n) =
    (false, .finite ⟨n * 2 ^ (52 - n.log2), -((52 - n.log2 : Nat) : Int), atPower⟩) := by
  obtain ⟨hlog, hexact⟩ := exact_of_lt hn h
  obtain ⟨hlow, hhigh⟩ := mantissa_bounds hn hexact
  have hbits := (toNat_toBits_ofNat n).trans (wholeBits_of_exact hn (by omega) hexact)
  have hsign : (Float.ofNat n).toBits.toNat / 2 ^ 63 = 0 := by omega
  have hexponent : (Float.ofNat n).toBits.toNat / 2 ^ 52 % 2048 = n.log2 + 1023 := by omega
  have hmantissa : (Float.ofNat n).toBits.toNat % 2 ^ 52 + 2 ^ 52 = n * 2 ^ (52 - n.log2) := by
    omega
  have hbias : ((n.log2 + 1023 : Nat) : Int) - 1075 = -((52 - n.log2 : Nat) : Int) := by omega
  rw [parts]
  simp only [Nat.pow_eq, hsign, hexponent, hmantissa, hbias]
  rw [if_neg (by omega), if_neg (by omega)]
  exact ⟨_, rfl⟩

/-! ## A tenth of the tenfold -/

/-- An even number of up to 54 bits needs no rounding. -/
lemma exact_two_mul (hn : n ≠ 0) (h : n < 2 ^ 53) :
    ∃ m, 2 * n * 2 ^ 53 = m * 2 ^ ((2 * n).log2 + 1) := by
  obtain ⟨hlog, hexact⟩ := exact_of_lt hn h
  have hdouble : (2 * n).log2 = n.log2 + 1 := by
    rw [Nat.mul_comm, ← Nat.pow_one 2, log2_mul_two_pow hn]
  refine ⟨n * 2 ^ (52 - n.log2), ?_⟩
  rw [hdouble, Nat.pow_succ 2 (n.log2 + 1), Nat.mul_assoc, hexact]
  ring

/-- Ten divides the mantissa of a tenfold, shifted by the length of a mantissa. -/
lemma divCore_ten {l : Nat} (hl : l < 54) (hlog : m.log2 = 52)
    (hm : 10 * n * 2 ^ 53 = m * 2 ^ (l + 1)) :
    divCore Format.binary64 m (l - 52) (10 * 2 ^ 49) (-49) =
      (n * 2 ^ (56 - l), -((56 - l : Nat) : Int), Accuracy.exact) := by
  have htarget : min ((l : Int) - 52 - -49) (Format.binary64.targetExponent
      (totalExponent m (l - 52) - totalExponent (10 * 2 ^ 49) (-49))) =
        -((56 - l : Nat) : Int) := by
    have hten : (10 * 2 ^ 49).log2 = 52 := by decide
    rw [targetExponent_eq, totalExponent, totalExponent, hlog, hten]
    omega
  have hshift : ((l : Int) - 52 - -49 - -((56 - l : Nat) : Int)).toNat = 53 := by omega
  have hquotient : m * 2 ^ 53 = n * 2 ^ (56 - l) * (10 * 2 ^ 49) := by
    refine Nat.eq_of_mul_eq_mul_right (Nat.two_pow_pos (l + 1)) ?_
    calc m * 2 ^ 53 * 2 ^ (l + 1) = m * 2 ^ (l + 1) * 2 ^ 53 := by ring
      _ = 10 * n * 2 ^ 53 * 2 ^ 53 := by rw [hm]
      _ = 10 * n * 2 ^ 49 * 2 ^ (56 - l + (l + 1)) := by
        rw [show 56 - l + (l + 1) = 57 by omega]
        ring
      _ = n * 2 ^ (56 - l) * (10 * 2 ^ 49) * 2 ^ (l + 1) := by ring
  simp only [divCore, htarget, hshift, Nat.shiftLeft_eq, hquotient, Nat.mul_mod_left,
    Nat.mul_div_cancel _ (show 0 < 10 * 2 ^ 49 by decide)]
  rfl

lemma div_finite {m' a : Nat} {e e' b : Int} {accuracy : Accuracy} (hm : 0 < m) (hm' : 0 < m')
    (h : divCore Format.binary64 m e m' e' = (a, b, accuracy)) :
    UnpackedFloat.div Format.binary64 (.finite .positive m e hm) (.finite .positive m' e' hm') =
      roundWithAccuracy Format.binary64 .positive a b accuracy := by
  change (match divCore Format.binary64 m e m' e' with
    | (q, exponent, rest) => roundWithAccuracy Format.binary64 .positive q exponent rest) = _
  rw [h]

lemma log2_ten_mul_le (hn : n ≠ 0) : (10 * n).log2 ≤ n.log2 + 4 := by
  refine Nat.le_of_lt_succ ((Nat.log2_lt (by omega)).2 ?_)
  have hself := Nat.lt_log2_self (n := n)
  rw [show (n.log2 + 4).succ = n.log2 + 1 + 4 by omega, Nat.pow_add]
  omega

/-- The tenfold of a number divided by ten is the number, if the tenfold needs no rounding. -/
lemma ofNat_ten_mul_div_ten (hn : n ≠ 0) (h : 10 * n ≤ 2 ^ 54) :
    Float.ofNat (10 * n) / Float.ofScientific 1 false 1 = Float.ofNat n := by
  obtain ⟨m, hm⟩ := exact_two_mul (n := 5 * n) (by omega) (by omega)
  rw [show 2 * (5 * n) = 10 * n by ring] at hm
  have hten : (Float.ofScientific 1 false 1).toModel.unpack =
      .finite .positive (10 * 2 ^ 49) (-49) (by decide) := rfl
  have hlog : (10 * n).log2 < 54 := (Nat.log2_lt (by omega)).2 (by omega)
  have hless := log2_ten_mul_le hn
  obtain ⟨hpos, hunpack⟩ := unpack_of_wholeBits (x := (Float.ofNat (10 * n)).toModel) (by omega)
    (by omega) hm (toNat_toBits_ofNat (10 * n))
  have hcore := divCore_ten hlog ((Nat.log2_eq_iff hpos.ne').2 (mantissa_bounds (by omega) hm)) hm
  have hround : Float.ofNat (10 * n) / Float.ofScientific 1 false 1 =
      .ofModel (Float.Model.pack (roundWithAccuracy Format.binary64 .positive
        (n * 2 ^ (56 - (10 * n).log2)) (-((56 - (10 * n).log2 : Nat) : Int)) .exact)) := by
    change Float.ofModel (Float.Model.pack (UnpackedFloat.div Format.binary64 _ _)) = _
    rw [hunpack, hten, div_finite hpos (by decide) hcore]
  refine float_eq_of_toNat_toBits_eq ?_
  rw [hround, toNat_toBits_ofNat]
  exact toNat_toBits_round hn (by omega)

/-! ## Decimals without a point -/

lemma ofDigits_dropWhile (ds : List Char) :
    ofDigits 10 (ds.dropWhile (· == '0')) = ofDigits 10 ds := by
  induction ds with
  | nil => rfl
  | cons c ds ih =>
    rw [List.dropWhile_cons]
    split
    · rename_i hc
      obtain rfl := beq_iff_eq.1 hc
      exact ih
    · rfl

lemma mul_pow_le_foldl (n : Nat) (ds : List Char) :
    n * 10 ^ ds.length ≤ ds.foldl (fun n c => n * 10 + digitValue c) n := by
  induction ds generalizing n with
  | nil => simp
  | cons c ds ih =>
    calc n * 10 ^ (c :: ds).length = n * 10 * 10 ^ ds.length := by
          rw [List.length_cons, Nat.pow_succ']
          ring
      _ ≤ (n * 10 + digitValue c) * 10 ^ ds.length := Nat.mul_le_mul_right _ (Nat.le_add_right _ _)
      _ ≤ _ := ih _

lemma digitValue_pos {c : Char} (hc : c.isDigit = true) (hne : c ≠ '0') : 0 < digitValue c := by
  have hzero : c.toNat ≠ '0'.toNat := fun h => hne (Char.toNat_inj.1 h)
  have hvalue : digitValue c = c.toNat - '0'.toNat := if_pos hc
  have hrange := (Char.isDigit_iff_toNat.1 hc).1
  omega

/-- A number with many digits behind its zeros is large. -/
lemma pow_le_ofDigits (hds : ∀ c ∈ ds, c.isDigit = true)
    (hk : k < (ds.dropWhile (· == '0')).length) : 10 ^ k ≤ ofDigits 10 ds := by
  obtain ⟨c, r, hcons⟩ := List.exists_cons_of_length_pos (Nat.zero_lt_of_lt hk)
  have hc : c ≠ '0' := by
    have hhead := List.head?_dropWhile_not (· == '0') ds
    rw [hcons] at hhead
    simpa using hhead
  have hdigit : c.isDigit = true :=
    hds c ((List.dropWhile_sublist _).mem (hcons ▸ List.mem_cons_self))
  rw [hcons, List.length_cons] at hk
  rw [← ofDigits_dropWhile, hcons]
  calc 10 ^ k ≤ 10 ^ r.length := Nat.pow_le_pow_right (by decide) (Nat.le_of_lt_succ hk)
    _ ≤ digitValue c * 10 ^ r.length := Nat.le_mul_of_pos_left _ (digitValue_pos hdigit hc)
    _ = (0 * 10 + digitValue c) * 10 ^ r.length := by rw [Nat.zero_mul, Nat.zero_add]
    _ ≤ ofDigits 10 (c :: r) := mul_pow_le_foldl _ r

/-- Digits write the float nearest to their number. -/
lemma nearest_zero (hds : ∀ c ∈ ds, c.isDigit = true) :
    nearest ds 0 = Float.ofNat (ofDigits 10 ds) := by
  rw [nearest]
  split
  · rename_i hzero
    rw [hzero]
    exact float_eq_of_toNat_toBits_eq (by decide)
  · rw [Int.add_zero]
    split
    · rename_i hlong
      have hlarge := pow_le_ofDigits (k := 400) hds (by omega)
      have htop : 2 ^ 1024 - 2 ^ 970 ≤ 10 ^ 400 := by decide +kernel
      have hbits : wholeBits (ofDigits 10 ds) = infiniteBits := by
        have hinfinite := wholeBits_lt_infiniteBits_iff.not.2 (Nat.not_lt.2 (htop.trans hlarge))
        rcases isPlain_wholeBits (ofDigits 10 ds) with hzero | ⟨-, hle⟩
        · exact absurd (hzero ▸ (by decide : 0 < infiniteBits)) hinfinite
        · omega
      refine float_eq_of_toNat_toBits_eq ?_
      rw [toNat_toBits_ofNat, hbits]
      decide
    · rw [if_neg (by omega)]
      rfl

end AddonAtlas.Decimal
