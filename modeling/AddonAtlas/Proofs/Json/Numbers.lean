import AddonAtlas.Json.Read
import AddonAtlas.Json.Write
import Mathlib.Algebra.Ring.Int.Defs
import Mathlib.Data.List.TakeWhile
import Mathlib.Data.Nat.Cast.Order.Basic

/-!
Numbers read back from their text.

Reading a number stops at the first character that can be no part of it, so a number that is read
from its text alone is read from every text that goes on with a comma or a closing bracket.
Integers of 64 bits read back as they are. Floats are read by one multiplication or division, which
does not give every float back, so `RoundTrips` says of a float that it does.
-/

namespace AddonAtlas.Json

open AddonAtlas.Text

variable {cs ds r t : List Char} {v : Value}

/-- What may follow a value in a text: nothing, a comma or a closing bracket. -/
def Ends (r : List Char) : Prop := ∀ c ∈ r.head?, c = ',' ∨ c = ']' ∨ c = '\x7d'

@[simp] lemma ends_nil : Ends [] := fun _ h => nomatch h

@[simp] lemma ends_comma : Ends (',' :: r) := fun _ h => .inl (Option.some.inj h).symm

@[simp] lemma ends_bracket : Ends (']' :: r) := fun _ h => .inr (.inl (Option.some.inj h).symm)

@[simp] lemma ends_brace : Ends ('\x7d' :: r) := fun _ h => .inr (.inr (Option.some.inj h).symm)

/-! ## Numbers inside a text -/

lemma Ends.no_digit (h : Ends r) : ∀ c ∈ r.head?, c.isDigit = false := fun c hc => by
  rcases h c hc with rfl | rfl | rfl <;> rfl

lemma takeWhile_append_of_no_digit (h : ∀ c ∈ r.head?, c.isDigit = false) :
    (cs ++ r).takeWhile Char.isDigit = cs.takeWhile Char.isDigit := by
  induction cs with
  | nil =>
    cases r with
    | nil => rfl
    | cons c r => simp [h c rfl]
  | cons c cs ih => rw [List.cons_append, List.takeWhile_cons, List.takeWhile_cons, ih]

lemma digits?_append (h : digits? cs = some (ds, t)) (hr : ∀ c ∈ r.head?, c.isDigit = false) :
    digits? (cs ++ r) = some (ds, t ++ r) := by
  rw [digits?, takeWhile_append_of_no_digit hr]
  rw [digits?] at h
  split at h
  · cases h
  · rename_i hne
    obtain ⟨rfl, rfl⟩ := Prod.mk.inj (Option.some.inj h)
    rw [if_neg hne, List.drop_append_of_le_length (List.takeWhile_sublist _).length_le]

/-- Digits begin with a digit. -/
lemma isDigit_of_digits? (h : digits? cs = some (ds, t)) :
    ∃ c r, cs = c :: r ∧ c.isDigit = true := by
  rw [digits?] at h
  split at h
  · cases h
  · rename_i hne
    cases cs with
    | nil => exact absurd rfl hne
    | cons c r =>
      refine ⟨c, r, rfl, ?_⟩
      by_contra hc
      exact hne (by simp [hc])

lemma whole?_append (h : whole? cs = some (ds, t)) (hr : ∀ c ∈ r.head?, c.isDigit = false) :
    whole? (cs ++ r) = some (ds, t ++ r) := by
  obtain ⟨hds, hzero⟩ := Option.filter_eq_some_iff.1 h
  exact Option.filter_eq_some_iff.2 ⟨digits?_append hds hr, hzero⟩

lemma places?_append {p : Option (List Char)} (h : places? cs = some (p, t)) (hr : Ends r) :
    places? (cs ++ r) = some (p, t ++ r) := by
  cases cs with
  | nil =>
    obtain ⟨rfl, rfl⟩ := Prod.mk.inj (Option.some.inj h)
    cases r with
    | nil => rfl
    | cons c r => rcases hr c rfl with rfl | rfl | rfl <;> rfl
  | cons c cs =>
    by_cases hc : c = '.'
    · subst hc
      obtain ⟨⟨ds, s⟩, hds, heq⟩ := Option.map_eq_some_iff.1 h
      obtain ⟨rfl, rfl⟩ := Prod.mk.inj heq
      rw [List.cons_append, places?, digits?_append hds hr.no_digit]
      rfl
    · have hplain (l : List Char) : places? (c :: l) = some (none, c :: l) := by simp [places?, hc]
      rw [hplain] at h
      obtain ⟨rfl, rfl⟩ := Prod.mk.inj (Option.some.inj h)
      rw [List.cons_append, hplain]

lemma minus_append (hne : cs ≠ []) : minus (cs ++ r) = ((minus cs).1, (minus cs).2 ++ r) := by
  cases cs with
  | nil => exact absurd rfl hne
  | cons c cs =>
    by_cases hc : c = '-'
    · subst hc
      rfl
    · simp [minus, hc]

lemma exponentMinus_append (hne : cs ≠ []) :
    exponentMinus (cs ++ r) = ((exponentMinus cs).1, (exponentMinus cs).2 ++ r) := by
  cases cs with
  | nil => exact absurd rfl hne
  | cons c cs =>
    by_cases hc : c = '+'
    · subst hc
      rfl
    · have hplain (l : List Char) : exponentMinus (c :: l) = minus (c :: l) := by
        simp [exponentMinus, hc]
      rw [List.cons_append, hplain, hplain]
      exact minus_append (List.cons_ne_nil c cs)

lemma exponent?_append {e : Option Int} (h : exponent? cs = some (e, t)) (hr : Ends r) :
    exponent? (cs ++ r) = some (e, t ++ r) := by
  cases cs with
  | nil =>
    obtain ⟨rfl, rfl⟩ := Prod.mk.inj (Option.some.inj h)
    cases r with
    | nil => rfl
    | cons c r => rcases hr c rfl with rfl | rfl | rfl <;> rfl
  | cons c cs =>
    rw [List.cons_append, exponent?]
    rw [exponent?] at h
    split
    · rename_i hc
      rw [if_pos hc] at h
      obtain ⟨⟨ds, s⟩, hds, heq⟩ := Option.map_eq_some_iff.1 h
      obtain ⟨rfl, rfl⟩ := Prod.mk.inj heq
      have hne : cs ≠ [] := by
        rintro rfl
        cases hds
      rw [exponentMinus_append hne]
      exact Option.map_eq_some_iff.2 ⟨(ds, s ++ r), digits?_append hds hr.no_digit, rfl⟩
    · rename_i hc
      rw [if_neg hc] at h
      obtain ⟨rfl, rfl⟩ := Prod.mk.inj (Option.some.inj h)
      rfl

/-- A number reads the same with more text behind it. -/
lemma number_append (h : number cs = some (v, t)) (hr : Ends r) :
    number (cs ++ r) = some (v, t ++ r) := by
  have hne : cs ≠ [] := by
    rintro rfl
    cases h
  simp only [number, Option.bind_eq_bind, Option.bind_eq_some_iff, Prod.exists] at h ⊢
  obtain ⟨whole, t₁, hwhole, places, t₂, hplaces, exponent, t₃, hexponent, heq⟩ := h
  obtain ⟨rfl, rfl⟩ := Prod.mk.inj (Option.some.inj heq)
  rw [minus_append hne]
  exact ⟨whole, t₁ ++ r, whole?_append hwhole hr.no_digit, places, t₂ ++ r,
    places?_append hplaces hr, exponent, t₃ ++ r, exponent?_append hexponent hr, rfl⟩

/-- A number begins with a minus sign or a digit. -/
lemma head_of_number (h : number cs = some (v, t)) :
    ∃ c r, cs = c :: r ∧ (c = '-' ∨ c.isDigit = true) := by
  simp only [number, Option.bind_eq_bind, Option.bind_eq_some_iff, Prod.exists] at h
  obtain ⟨whole, t₁, hwhole, -⟩ := h
  obtain ⟨c, r, hcs, hc⟩ := isDigit_of_digits? (Option.filter_eq_some_iff.1 hwhole).1
  cases cs with
  | nil => cases hcs
  | cons d cs =>
    by_cases hd : d = '-'
    · exact ⟨d, cs, rfl, .inl hd⟩
    · have hminus : (minus (d :: cs)).2 = d :: cs := by simp [minus, hd]
      obtain ⟨rfl, rfl⟩ := List.cons.inj (hminus.symm.trans hcs)
      exact ⟨d, cs, rfl, .inr hc⟩

/-! ## Integers -/

lemma digitValue_of_isDigit {c : Char} (h : c.isDigit = true) :
    digitValue c = c.toNat - '0'.toNat :=
  if_pos h

/-- Digits that do not exceed the largest number are all collected. -/
lemma collect_of_le {n : Nat} (hds : ∀ c ∈ ds, c.isDigit = true)
    (h : Nat.ofDigitChars 10 ds n ≤ largest) : collect n ds = (Nat.ofDigitChars 10 ds n, []) := by
  induction ds generalizing n with
  | nil => rfl
  | cons c ds ih =>
    obtain ⟨hc, hds⟩ := List.forall_mem_cons.1 hds
    have hnext : n * 10 + digitValue c = 10 * n + (c.toNat - '0'.toNat) := by
      rw [digitValue_of_isDigit hc, Nat.mul_comm]
    rw [Nat.ofDigitChars_cons, ← hnext] at h ⊢
    have hle : n * 10 + digitValue c ≤ largest := by
      rw [Nat.ofDigitChars_eq_ofDigitChars_zero] at h
      have hpos : 1 ≤ 10 ^ ds.length := Nat.one_le_pow _ _ (by decide)
      have hmul := Nat.mul_le_mul_right (n * 10 + digitValue c) hpos
      omega
    rw [collect]
    simp only [if_neg (Nat.not_lt.2 hle)]
    exact ih hds h

/-- Only zero is written with a zero in front. -/
lemma head?_toDigits {n : Nat} (h : (Nat.toDigits 10 n).head? = some '0') : n = 0 := by
  induction n using Nat.strongRecOn with
  | ind n ih =>
    by_cases hn : n < 10
    · rw [Nat.toDigits_of_lt_base hn] at h
      have hsmall : ∀ n < 10, [n.digitChar].head? = some '0' → n = 0 := by decide
      exact hsmall n hn h
    · obtain ⟨d, ds, hds⟩ :=
        List.exists_cons_of_ne_nil (Nat.toDigits_ne_nil (n := n / 10) (b := 10))
      rw [Nat.toDigits_of_base_le (by decide) (Nat.not_lt.1 hn), hds] at h
      have hzero := ih (n / 10) (by omega) (by rw [hds]; exact h)
      omega

lemma isDigit_of_mem {n : Nat} {c : Char} (h : c ∈ Nat.toDigits 10 n) : c.isDigit = true :=
  Nat.isDigit_of_mem_toDigits (by decide) (by decide) h

lemma whole?_toDigits (n : Nat) : whole? (Nat.toDigits 10 n) = some (Nat.toDigits 10 n, []) := by
  have hall : (Nat.toDigits 10 n).takeWhile Char.isDigit = Nat.toDigits 10 n :=
    List.takeWhile_eq_self_iff.2 fun c hc => isDigit_of_mem hc
  refine Option.filter_eq_some_iff.2 ⟨?_, ?_⟩
  · rw [digits?, hall, List.drop_length]
    exact if_neg (by simp [Nat.toDigits_ne_nil])
  · by_cases hzero : (Nat.toDigits 10 n).head? = some '0'
    · rw [head?_toDigits hzero]
      decide
    · simp [hzero]

/-- The integers that a text of data can write. -/
def IsWord (n : Int) : Prop := -2 ^ 63 ≤ n ∧ n < 2 ^ 64

lemma collect_toDigits {n : Nat} (h : n < 2 ^ 64) : collect 0 (Nat.toDigits 10 n) = (n, []) := by
  have hn : Nat.ofDigitChars 10 (Nat.toDigits 10 n) 0 = n := Nat.ofDigitChars_ten_toDigits
  have hle : n ≤ largest := Nat.le_pred_of_lt h
  rw [collect_of_le (fun c hc => isDigit_of_mem hc) (hn.trans_le hle), hn]

lemma minus_toDigits (n : Nat) : minus (Nat.toDigits 10 n) = (false, Nat.toDigits 10 n) := by
  unfold minus
  split
  · rename_i heq
    have hmem : '-' ∈ Nat.toDigits 10 n := heq ▸ List.mem_cons_self
    exact absurd (isDigit_of_mem hmem) (by decide)
  · rfl

lemma number_toDigits (n : Nat) :
    number (Nat.toDigits 10 n) = some (ofParts false (Nat.toDigits 10 n) none none, []) := by
  simp [number, minus_toDigits, whole?_toDigits, places?, exponent?]

lemma number_minus_toDigits (n : Nat) :
    number ('-' :: Nat.toDigits 10 n) = some (ofParts true (Nat.toDigits 10 n) none none, []) := by
  simp [number, minus, whole?_toDigits, places?, exponent?]

/-- An integer reads back from its text. -/
lemma number_scalar_int {n : Int} (h : IsWord n) :
    number (scalar (.int n)).toList = some (.int n, []) := by
  obtain ⟨hlow, hhigh⟩ := h
  cases n with
  | ofNat n =>
    have hn : n < 2 ^ 64 := by
      rw [Int.ofNat_eq_natCast] at hhigh
      exact_mod_cast hhigh
    have htext : (scalar (.int (Int.ofNat n))).toList = Nat.toDigits 10 n := Nat.toList_repr
    rw [htext, number_toDigits]
    simp [ofParts, collect_toDigits hn]
  | negSucc n =>
    have hn : n + 1 ≤ 2 ^ 63 := by
      rw [Int.negSucc_eq] at hlow
      omega
    have htext : (scalar (.int (Int.negSucc n))).toList = '-' :: Nat.toDigits 10 (n + 1) := by
      change ("-" ++ (n + 1).repr).toList = _
      rw [String.toList_append, Nat.toList_repr]
      rfl
    have hsmall : ¬UInt64.size / 2 < n + 1 := Nat.not_lt.2 hn
    rw [htext, number_minus_toDigits]
    simp [ofParts, collect_toDigits (n := n + 1) (by omega), hsmall, Int.negSucc_eq]

/-! ## Floats -/

/-- A finite float that reads back from its text. -/
structure RoundTrips (x : Float) : Prop where
  finite : x.isFinite = true
  reads : number (scalar (.float x)).toList = some (.float x, [])

end AddonAtlas.Json
