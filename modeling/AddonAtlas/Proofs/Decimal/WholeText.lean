import AddonAtlas.Decimal.Shortest
import AddonAtlas.Proofs.Decimal.Whole
import Mathlib.Tactic.Positivity
import Mathlib.Tactic.Ring

/-!
Texts of whole floats.

The reals that round to a float of a natural number of up to 52 bits lie so close to it that it is
the only natural number among them. So its shortest decimal is the number itself without the zeros
at its end, and its text is the number with these zeros, a point and another zero.
-/

namespace AddonAtlas.Decimal

variable {a m n : Nat} {b : Binary}

/-! ## Powers of ten around a natural number -/

lemma digitCount_le_digitCount (h : m ≤ n) : digitCount m ≤ digitCount n := by
  have hself : n < 10 ^ digitCount n :=
    (Nat.length_toDigits_le_iff (by decide) Nat.length_toDigits_pos).1 le_rfl
  exact (Nat.length_toDigits_le_iff (by decide) Nat.length_toDigits_pos).2 (h.trans_lt hself)

/-- A binary number whose value is a natural number, with at least one binary place. -/
structure Binary.IsWhole (b : Binary) (n a : Nat) : Prop where
  mantissa : b.mantissa = n * 2 ^ a
  exponent : b.exponent = -(a : Int)
  places : 0 < a
  pos : 0 < n

namespace Binary.IsWhole

lemma interval_fields (h : b.IsWhole n a) :
    b.interval.value = n * (4 * 2 ^ a) ∧ b.interval.denominator = 4 * 2 ^ a ∧
      b.interval.high = n * (4 * 2 ^ a) + 2 ∧
      b.interval.low < n * (4 * 2 ^ a) ∧ n * (4 * 2 ^ a) ≤ b.interval.low + 2 := by
  have hup : scaleUp b.exponent = 1 := by
    rw [scaleUp, h.exponent, Int.toNat_neg_natCast, Nat.pow_eq, Nat.pow_zero]
  have hdown : scaleDown b.exponent = 2 ^ a := by
    rw [scaleDown, h.exponent, Int.neg_neg, Int.toNat_natCast, Nat.pow_eq]
  have hvalue : 4 * (n * 2 ^ a) = n * (4 * 2 ^ a) := by ring
  have hpos : 0 < n * (4 * 2 ^ a) := Nat.mul_pos h.pos (by positivity)
  simp only [Binary.interval, hup, hdown, h.mantissa, hvalue, Nat.mul_one, true_and]
  split <;> omega

/-- Of the multiples of a power of ten only the number itself is near to it. -/
lemma contains_iff (h : b.IsWhole n a) (m k : Nat) :
    b.interval.contains m (k : Int) = true ↔ m * 10 ^ k = n := by
  obtain ⟨-, hdenominator, hhigh, hlow, hlow'⟩ := h.interval_fields
  have hwide : 2 < 4 * 2 ^ a := by
    have hpow := Nat.two_pow_pos a
    omega
  have hleft : m * 10 ^ k < n → m * 10 ^ k * (4 * 2 ^ a) + 4 * 2 ^ a ≤ n * (4 * 2 ^ a) := by
    intro hlt
    rw [← Nat.succ_mul]
    exact Nat.mul_le_mul_right _ hlt
  have hright : n < m * 10 ^ k → n * (4 * 2 ^ a) + 4 * 2 ^ a ≤ m * 10 ^ k * (4 * 2 ^ a) := by
    intro hlt
    rw [← Nat.succ_mul]
    exact Nat.mul_le_mul_right _ hlt
  simp only [Interval.contains, Int.toNat_natCast, Int.toNat_neg_natCast, Nat.pow_eq, Nat.pow_zero,
    Nat.mul_one, hdenominator, hhigh]
  rcases Nat.lt_trichotomy (m * 10 ^ k) n with hlt | heq | hgt
  · have hfar := hleft hlt
    split <;> simp only [Bool.and_eq_true, decide_eq_true_eq] <;> omega
  · refine iff_of_true ?_ heq
    rw [heq]
    split <;> simp only [Bool.and_eq_true, decide_eq_true_eq] <;> omega
  · have hfar := hright hgt
    split <;> simp only [Bool.and_eq_true, decide_eq_true_eq] <;> omega

lemma nearest?_eq (h : b.IsWhole n a) (k : Nat) :
    b.interval.nearest? (k : Int) = if 10 ^ k ∣ n then some (n / 10 ^ k) else none := by
  obtain ⟨hvalue, hdenominator, -⟩ := h.interval_fields
  have hpos : 0 < 10 ^ k := by positivity
  have hquotient : n * (4 * 2 ^ a) / (4 * 2 ^ a * 10 ^ k) = n / 10 ^ k := by
    rw [Nat.mul_comm n]
    exact Nat.mul_div_mul_left n _ (by positivity)
  have habove : b.interval.contains (n / 10 ^ k + 1) (k : Int) = false := by
    rw [← Bool.not_eq_true, h.contains_iff, Nat.mul_comm]
    exact (Nat.lt_mul_div_succ n hpos).ne'
  simp only [Interval.nearest?, Int.toNat_natCast, Int.toNat_neg_natCast, Nat.pow_eq, Nat.pow_zero,
    Nat.mul_one, hvalue, hdenominator, hquotient, habove, Bool.and_false, Bool.false_eq_true,
    if_false]
  refine if_congr ?_ rfl rfl
  rw [Bool.and_eq_true, decide_eq_true_eq, h.contains_iff]
  constructor
  · rintro ⟨-, hmul⟩
    exact Dvd.intro_left _ hmul
  · intro hdvd
    exact ⟨Nat.div_pos (Nat.le_of_dvd h.pos hdvd) hpos, Nat.div_mul_cancel hdvd⟩

/-- The search stops at the largest power of ten that divides the number. -/
lemma exists_search (h : b.IsWhole n a) {fuel k : Nat} (hk : k < fuel) :
    ∃ m j : Nat, b.interval.search fuel (k : Int) = ⟨m, (j : Int)⟩ ∧ m * 10 ^ j = n := by
  induction fuel generalizing k with
  | zero => cases hk
  | succ fuel ih =>
    rw [Interval.search, h.nearest?_eq]
    by_cases hdvd : 10 ^ k ∣ n
    · rw [if_pos hdvd]
      exact ⟨n / 10 ^ k, k, rfl, Nat.div_mul_cancel hdvd⟩
    · rw [if_neg hdvd]
      cases k with
      | zero => exact absurd (by simp) hdvd
      | succ k =>
        dsimp only
        rw [show ((k + 1 : Nat) : Int) - 1 = k by omega]
        exact ih (by omega)

lemma exists_shortest (h : b.IsWhole n a) (hsize : n * 2 ^ a < 2 ^ 53) :
    ∃ m j : Nat, b.shortest = ⟨m, (j : Int)⟩ ∧ m * 10 ^ j = n := by
  obtain ⟨hvalue, hdenominator, -⟩ := h.interval_fields
  have hless : digitCount b.interval.denominator ≤ digitCount b.interval.value := by
    rw [hvalue, hdenominator]
    exact digitCount_le_digitCount (Nat.le_mul_of_pos_left _ h.pos)
  have hlong : digitCount b.interval.value ≤ 17 := by
    rw [hvalue]
    refine (Nat.length_toDigits_le_iff (by decide) (by decide)).2 ?_
    calc n * (4 * 2 ^ a) = 4 * (n * 2 ^ a) := by ring
      _ < 10 ^ 17 := by omega
  obtain ⟨k, hk⟩ : ∃ k : Nat, (digitCount b.interval.value : Int) -
      (digitCount b.interval.denominator : Int) + 1 = k :=
    ⟨digitCount b.interval.value - digitCount b.interval.denominator + 1, by omega⟩
  rw [Binary.shortest]
  rw [hk]
  exact h.exists_search (by omega)

end Binary.IsWhole

/-! ## Texts -/

lemma toDigits_mul_pow (hm : 0 < m) (k : Nat) :
    Nat.toDigits 10 (m * 10 ^ k) = Nat.toDigits 10 m ++ List.replicate k '0' := by
  induction k with
  | zero => simp
  | succ k ih =>
    have hpos : 0 < m * 10 ^ k := by positivity
    rw [List.replicate_succ', ← List.append_assoc, ← ih, ← Nat.toDigits_zero 10,
      Nat.toDigits_append_toDigits (by decide) hpos (by decide)]
    congr 1
    ring

/-- A number with up to 16 digits is written with all of its digits. -/
lemma write_dataStyle (hn : 0 < n) (h : n < 10 ^ 16) {k : Nat} (hm : m * 10 ^ k = n) :
    Scientific.write dataStyle ⟨m, (k : Int)⟩ = String.ofList (Nat.toDigits 10 n) ++ ".0" := by
  have hpos : 0 < m := Nat.pos_of_ne_zero fun hzero => by simp [hzero] at hm; omega
  have hdigits := toDigits_mul_pow hpos k
  have hlength : (Nat.toDigits 10 n).length ≤ 16 :=
    (Nat.length_toDigits_le_iff (by decide) (by decide)).2 h
  rw [hm] at hdigits
  rw [hdigits, List.length_append, List.length_replicate] at hlength
  rw [Scientific.write, dataStyle]
  dsimp only
  rw [if_pos (by simp; omega), if_neg (by omega), Int.toNat_natCast, ← hdigits]

/-- The text of a whole float. -/
lemma writeShortest_ofNat (hn : n ≠ 0) (h : n < 2 ^ 52) :
    writeShortest dataStyle (Float.ofNat n) = String.ofList (Nat.toDigits 10 n) ++ ".0" := by
  obtain ⟨hlog, hexact⟩ := exact_of_lt hn (h.trans (by decide))
  obtain ⟨-, hsize⟩ := mantissa_bounds hn hexact
  obtain ⟨atPower, hparts⟩ := parts_ofNat hn (h.trans (by decide))
  have hplaces : n.log2 < 52 := (Nat.log2_lt hn).2 h
  have hwhole : Binary.IsWhole ⟨n * 2 ^ (52 - n.log2), -((52 - n.log2 : Nat) : Int), atPower⟩ n
      (52 - n.log2) := ⟨rfl, rfl, by omega, Nat.pos_of_ne_zero hn⟩
  obtain ⟨m, k, hshortest, hm⟩ := hwhole.exists_shortest hsize
  rw [writeShortest, hparts]
  dsimp only
  rw [hshortest, write_dataStyle (Nat.pos_of_ne_zero hn) (by omega) hm]
  rfl

end AddonAtlas.Decimal
