import AddonAtlas.Proofs.Source.Literals
import Mathlib.Data.List.Basic
import Mathlib.Data.List.Induction
import Mathlib.Data.List.TakeWhile
import Mathlib.Data.Nat.Digits.Defs
import Mathlib.Tactic.IntervalCases
import Mathlib.Tactic.Ring

/-!
Integers, their signs, and how large they get.

An integer token has no sign of its own, so its value is no negative number, and signs around it
never lead further down than the largest value leads up. This is why a sign can always be turned in
64 bits, although they hold one negative number more than positive ones.
-/

namespace AddonAtlas.Source.Literal

open AddonAtlas.Text

/-! ## Tokens -/

def lowerDigits : List Char := "0123456789abcdef".toList

def upperDigits : List Char := "0123456789ABCDEF".toList

/-- What a digit counts: its place among the digits of either case. -/
def digitOf? (c : Char) : Option Nat := (lowerDigits.idxOf? c).or (upperDigits.idxOf? c)

/-- Whether a character is a digit of a base. -/
def IsDigitOf (base : Nat) (c : Char) : Prop := ∃ d, digitOf? c = some d ∧ d < base

instance (base : Nat) (c : Char) : Decidable (IsDigitOf base c) :=
  decidable_of_iff ((digitOf? c).any (· < base) = true) (by simp [IsDigitOf, Option.any_eq_true])

/-- What opens an integer token, and the base it announces. -/
def openings : List (List Char × Nat) :=
  [([], 10), (['0', 'x'], 16), (['0', 'X'], 16), (['0', 'o'], 8), (['0', 'O'], 8), (['0', 'b'], 2),
    (['0', 'B'], 2)]

/-- An integer token: digits of the base that its opening announces, among underscores, and perhaps
the letter of long integers. -/
structure IntegerToken where
  opening : List Char
  base : Nat
  digits : List Char
  suffix : List Char
  announced : (opening, base) ∈ openings
  areDigits : ∀ c ∈ digits, c = '_' ∨ IsDigitOf base c
  hasDigit : ∃ c ∈ digits, c ≠ '_'
  closed : suffix ∈ [[], ['l'], ['L']]

namespace IntegerToken

def text (k : IntegerToken) : String := String.ofList (k.opening ++ k.digits ++ k.suffix)

/-- The number that a token writes. -/
def value (k : IntegerToken) : Nat := Nat.ofDigits k.base (k.digits.filterMap digitOf?).reverse

end IntegerToken

variable {c : Char} {d n : Nat} {k : IntegerToken} {text : String}

lemma digitValue_of_idxOf? {ds : List Char} (hds : ds.map digitValue = List.range ds.length)
    (h : ds.idxOf? c = some d) : digitValue c = d := by
  obtain ⟨hlt, hget, -⟩ := List.idxOf?_eq_some_iff.1 h
  have hplace : (ds.map digitValue)[d]? = some d := by rw [hds, List.getElem?_range hlt]
  rw [List.getElem?_map, List.getElem?_eq_getElem hlt, hget] at hplace
  exact Option.some.inj hplace

lemma digitValue_of_digitOf? (h : digitOf? c = some d) : digitValue c = d := by
  rcases Option.or_eq_some_iff.1 h with h | ⟨-, h⟩
  · exact digitValue_of_idxOf? (by decide) h
  · exact digitValue_of_idxOf? (by decide) h

/-- Reading digits from the left makes the number that they write. -/
lemma ofDigits_eq (base : Nat) (ds : List Char) :
    Text.ofDigits base ds = Nat.ofDigits base (ds.map digitValue).reverse := by
  induction ds using List.reverseRecOn with
  | nil => rfl
  | append_singleton ds c ih =>
    rw [Text.ofDigits, List.foldl_append, ← Text.ofDigits, ih, List.map_append, List.reverse_append]
    simp only [List.foldl_cons, List.foldl_nil, List.map_cons, List.map_nil, List.reverse_singleton,
      List.singleton_append, Nat.ofDigits_cons]
    ring

namespace IntegerToken

/-- The digits of a token without the underscores among them. -/
def plainDigits (k : IntegerToken) : List Char := withoutUnderscores k.digits

lemma isDigitOf (k : IntegerToken) :
    ∀ c ∈ k.plainDigits, IsDigitOf k.base c := by
  intro c hc
  obtain ⟨hc, hne⟩ := List.mem_filter.1 hc
  exact (k.areDigits c hc).resolve_left (by simpa using hne)

lemma plainDigits_ne_nil (k : IntegerToken) : k.plainDigits ≠ [] := by
  obtain ⟨c, hc, hne⟩ := k.hasDigit
  exact List.ne_nil_of_mem (List.mem_filter.2 ⟨hc, by simpa using hne⟩)

lemma value_eq (k : IntegerToken) : k.value = Text.ofDigits k.base k.plainDigits := by
  have hdigits : k.digits.filterMap digitOf? = k.plainDigits.map digitValue := by
    rw [plainDigits, withoutUnderscores, ← List.filterMap_eq_map, List.filterMap_filter]
    refine List.filterMap_congr fun c hc => ?_
    rcases k.areDigits c hc with rfl | ⟨d, hd, -⟩
    · decide
    · have hne : c ≠ '_' := by
        rintro rfl
        cases hd
      simp [hne, hd, digitValue_of_digitOf? hd]
  rw [value, hdigits, ofDigits_eq]

lemma basedInteger?_plainDigits (k : IntegerToken) :
    basedInteger? k.base k.plainDigits =
      if k.value ≤ largest then some (k.value : Int) else none := by
  have hbelow : k.plainDigits.all (fun c => digitValue c < k.base) = true := by
    rw [List.all_eq_true]
    intro c hc
    obtain ⟨d, hd, hlt⟩ := k.isDigitOf c hc
    simpa [digitValue_of_digitOf? hd] using hlt
  have hsome : k.plainDigits.isEmpty = false := List.isEmpty_eq_false_iff.2 k.plainDigits_ne_nil
  rw [basedInteger?, hsome, hbelow, k.value_eq]
  rfl

end IntegerToken

/-! ## What is cut as an integer -/

/-- What is cut from a text as an integer: a token, or an imaginary number, which ends in its own
letter. -/
def IsInteger (cs : List Char) : Prop :=
  (∃ k : IntegerToken, k.text = String.ofList cs) ∨ ∃ ds c, cs = ds ++ [c] ∧ (c = 'j' ∨ c = 'J')

/-- Characters of a range are digits if each code point of it is one. -/
lemma isDigitOf_range {base low high : Nat}
    (hall : ∀ n, low ≤ n → n ≤ high → IsDigitOf base (Char.ofNat n))
    (h : low ≤ c.toNat ∧ c.toNat ≤ high) : IsDigitOf base c :=
  Char.ofNat_toNat c ▸ hall c.toNat h.1 h.2

lemma isDigitOf_hex (h : isHexDigit c = true) : IsDigitOf 16 c := by
  have hranges : (48 ≤ c.toNat ∧ c.toNat ≤ 57 ∨ 97 ≤ c.toNat ∧ c.toNat ≤ 102) ∨
      65 ≤ c.toNat ∧ c.toNat ≤ 70 := by
    simpa [isHexDigit, Char.isDigit, Char.le_def, UInt32.le_iff_toNat_le] using h
  rcases hranges with (hrange | hrange) | hrange
  all_goals
    refine isDigitOf_range (fun n hlow hhigh => ?_) hrange
    interval_cases n <;> decide

lemma isDigitOf_decimal (h : c.isDigit = true) : IsDigitOf 10 c := by
  have hrange : 48 ≤ c.toNat ∧ c.toNat ≤ 57 := by
    simpa [Char.isDigit, Char.le_def, UInt32.le_iff_toNat_le] using h
  refine isDigitOf_range (fun n hlow hhigh => ?_) hrange
  interval_cases n <;> decide

lemma isDigitOf_octal (h : ('0' ≤ c && c ≤ '7') = true) : IsDigitOf 8 c := by
  have hrange : 48 ≤ c.toNat ∧ c.toNat ≤ 55 := by
    simpa [Char.le_def, UInt32.le_iff_toNat_le] using h
  refine isDigitOf_range (fun n hlow hhigh => ?_) hrange
  interval_cases n <;> decide

lemma isDigitOf_binary (h : (c = '0' || c = '1') = true) : IsDigitOf 2 c := by
  obtain rfl | rfl : c = '0' ∨ c = '1' := by simpa using h
  · decide
  · decide

lemma mem_take_digitGroups {ds : List Char} (hc : c ∈ ds.take (Lexeme.digitGroups ds)) :
    c = '_' ∨ c.isDigit = true := by
  fun_induction Lexeme.digitGroups ds with
  | case1 | case3 | case6 => cases hc
  | case2 x hx =>
    obtain rfl := List.mem_singleton.1 hc
    exact Or.inr hx
  | case4 x r hx ih =>
    rw [Nat.add_comm, List.take_succ_cons, List.take_succ_cons, List.mem_cons, List.mem_cons] at hc
    obtain rfl | rfl | hc := hc
    · exact Or.inr hx
    · exact Or.inl rfl
    · exact ih hc
  | case5 x y r hx hy ih =>
    rw [Nat.add_comm, List.take_succ_cons, List.mem_cons] at hc
    obtain rfl | hc := hc
    · exact Or.inr hx
    · exact ih hc

lemma exists_take_digitGroups {ds : List Char} (h : Lexeme.digitGroups ds ≠ 0) :
    ∃ c ∈ ds.take (Lexeme.digitGroups ds), c.isDigit = true := by
  fun_induction Lexeme.digitGroups ds with
  | case1 | case3 | case6 => exact absurd rfl h
  | case2 x hx => exact ⟨x, by simp, hx⟩
  | case4 x r hx => exact ⟨x, by simp [Nat.add_comm 2], hx⟩
  | case5 x y r hx hy => exact ⟨x, by simp [Nat.add_comm 1], hx⟩

lemma mem_take_basedDigits {p : Char → Bool} {ds : List Char}
    (hc : c ∈ ds.take (Lexeme.basedDigits p ds)) : c = '_' ∨ p c = true := by
  fun_induction Lexeme.basedDigits p ds with
  | case1 | case3 | case6 => cases hc
  | case2 x hx =>
    obtain rfl := List.mem_singleton.1 hc
    exact Or.inr hx
  | case4 x y r hx ih =>
    rw [Nat.add_comm, List.take_succ_cons, List.mem_cons] at hc
    obtain rfl | hc := hc
    · exact Or.inr hx
    · exact ih hc
  | case5 x y r hx hy ih =>
    rw [Nat.add_comm, List.take_succ_cons, List.take_succ_cons, List.mem_cons, List.mem_cons] at hc
    obtain ⟨hx', hy'⟩ : x = '_' ∧ p y = true := by simpa using hy
    obtain rfl | rfl | hc := hc
    · exact Or.inl hx'
    · exact Or.inr hy'
    · exact ih hc

lemma exists_take_basedDigits {p : Char → Bool} {ds : List Char}
    (h : Lexeme.basedDigits p ds ≠ 0) : ∃ c ∈ ds.take (Lexeme.basedDigits p ds), p c = true := by
  fun_induction Lexeme.basedDigits p ds with
  | case1 | case3 | case6 => exact absurd rfl h
  | case2 x hx => exact ⟨x, by simp, hx⟩
  | case4 x y r hx => exact ⟨x, by simp [Nat.add_comm 1], hx⟩
  | case5 x y r hx hy =>
    obtain ⟨-, hy'⟩ : x = '_' ∧ p y = true := by simpa using hy
    exact ⟨y, by simp [Nat.add_comm 2], hy'⟩

/-- A suffix is one letter, or nothing. -/
lemma take_suffixLength (p : Char → Bool) (ds : List Char) :
    ds.take (Lexeme.suffixLength p ds) = [] ∨
      ∃ c, p c = true ∧ ds.take (Lexeme.suffixLength p ds) = [c] := by
  cases ds with
  | nil => exact Or.inl List.take_nil
  | cons c r =>
    cases hc : p c with
    | true => exact Or.inr ⟨c, hc, by simp [Lexeme.suffixLength, hc]⟩
    | false => exact Or.inl (by simp [Lexeme.suffixLength, hc])

/-- The length of a decimal integer at the front. -/
def plainLength (cs : List Char) : Nat :=
  match Lexeme.digitGroups cs with
  | 0 => 0
  | n => n + Lexeme.suffixLength (fun c => c = 'l' || c = 'L' || c = 'j' || c = 'J') (cs.drop n)

/-- The length of an integer of another base, where its digits begin behind two characters. -/
def basedLength (p : Char → Bool) (cs r : List Char) : Nat :=
  match Lexeme.basedDigits p r with
  | 0 => plainLength cs
  | n => 2 + n + Lexeme.suffixLength (fun c => c = 'l' || c = 'L') (cs.drop (2 + n))

lemma integerLength_eq (cs : List Char) :
    Lexeme.integerLength cs = match cs with
      | '0' :: c :: r =>
        if c = 'x' || c = 'X' then basedLength isHexDigit cs r
        else if c = 'o' || c = 'O' then basedLength (fun d => '0' ≤ d && d ≤ '7') cs r
        else if c = 'b' || c = 'B' then basedLength (fun d => d = '0' || d = '1') cs r
        else plainLength cs
      | _ => plainLength cs := rfl

lemma isInteger_token {p : Char → Bool} {base : Nat} {opening digits suffix : List Char}
    (hp : ∀ c, p c = true → IsDigitOf base c) (hopening : (opening, base) ∈ openings)
    (hdigits : ∀ c ∈ digits, c = '_' ∨ p c = true) (hsome : ∃ c ∈ digits, p c = true)
    (hsuffix : suffix ∈ [[], ['l'], ['L']]) : IsInteger (opening ++ digits ++ suffix) := by
  have hdigit : ∃ c ∈ digits, c ≠ '_' := by
    obtain ⟨c, hc, hpc⟩ := hsome
    refine ⟨c, hc, ?_⟩
    rintro rfl
    obtain ⟨d, hd, -⟩ := hp _ hpc
    cases hd
  exact Or.inl ⟨⟨opening, base, digits, suffix, hopening,
    fun c hc => (hdigits c hc).imp id (hp c), hdigit, hsuffix⟩, rfl⟩

/-- Decimal digits and a letter at most make an integer. -/
lemma isInteger_plain {ds : List Char} (h : plainLength ds ≠ 0) :
    IsInteger (ds.take (plainLength ds)) := by
  have hdigits : Lexeme.digitGroups ds ≠ 0 := by
    intro hzero
    simp [plainLength, hzero] at h
  have hlength : plainLength ds = Lexeme.digitGroups ds + Lexeme.suffixLength
      (fun c => c = 'l' || c = 'L' || c = 'j' || c = 'J') (ds.drop (Lexeme.digitGroups ds)) := by
    unfold plainLength
    split
    · contradiction
    · rfl
  have hopening : (([] : List Char), 10) ∈ openings := by decide
  have htoken {suffix : List Char} (hsuffix : suffix ∈ [[], ['l'], ['L']]) :
      IsInteger (ds.take (Lexeme.digitGroups ds) ++ suffix) :=
    isInteger_token (fun _ => isDigitOf_decimal) hopening (fun _ => mem_take_digitGroups)
      (exists_take_digitGroups hdigits) hsuffix
  rw [hlength, List.take_add]
  rcases take_suffixLength (fun c => c = 'l' || c = 'L' || c = 'j' || c = 'J')
    (ds.drop (Lexeme.digitGroups ds)) with hnil | ⟨c, hc, hletter⟩
  · rw [hnil]
    exact htoken (by decide)
  · rw [hletter]
    obtain ((rfl | rfl) | hj) | hj : ((c = 'l' ∨ c = 'L') ∨ c = 'j') ∨ c = 'J' := by simpa using hc
    · exact htoken (by decide)
    · exact htoken (by decide)
    · exact Or.inr ⟨_, c, rfl, Or.inl hj⟩
    · exact Or.inr ⟨_, c, rfl, Or.inr hj⟩

lemma isInteger_based {p : Char → Bool} {base : Nat} (opening : List Char) {r : List Char}
    (hp : ∀ c, p c = true → IsDigitOf base c) (hopening : (opening, base) ∈ openings)
    (htwo : opening.length = 2) (h : basedLength p (opening ++ r) r ≠ 0) :
    IsInteger ((opening ++ r).take (basedLength p (opening ++ r) r)) := by
  unfold basedLength at h ⊢
  split
  · rename_i hzero
    rw [hzero] at h
    exact isInteger_plain h
  · rename_i hdigits
    have hdrop : (opening ++ r).drop (2 + Lexeme.basedDigits p r) =
        r.drop (Lexeme.basedDigits p r) := by
      rw [← htwo, List.drop_append, List.drop_eq_nil_of_le (by omega), Nat.add_sub_cancel_left,
        List.nil_append]
    have htake : (opening ++ r).take (2 + Lexeme.basedDigits p r) =
        opening ++ r.take (Lexeme.basedDigits p r) := by
      rw [← htwo, List.take_append, List.take_of_length_le (by omega), Nat.add_sub_cancel_left]
    have htoken {suffix : List Char} (hsuffix : suffix ∈ [[], ['l'], ['L']]) :
        IsInteger (opening ++ r.take (Lexeme.basedDigits p r) ++ suffix) :=
      isInteger_token hp hopening (fun _ => mem_take_basedDigits)
        (exists_take_basedDigits hdigits) hsuffix
    rw [hdrop, List.take_add, htake, hdrop]
    rcases take_suffixLength (fun c => c = 'l' || c = 'L') (r.drop (Lexeme.basedDigits p r))
      with hnil | ⟨c, hc, hletter⟩
    · rw [hnil]
      exact htoken (by decide)
    · rw [hletter]
      obtain rfl | rfl : c = 'l' ∨ c = 'L' := by simpa using hc
      · exact htoken (by decide)
      · exact htoken (by decide)

lemma isInteger_integerLength {ds : List Char} (h : Lexeme.integerLength ds ≠ 0) :
    IsInteger (ds.take (Lexeme.integerLength ds)) := by
  rw [integerLength_eq] at h ⊢
  revert h
  split
  · rename_i c r
    intro h
    have hbased {p : Char → Bool} {base : Nat} (hp : ∀ c, p c = true → IsDigitOf base c)
        (hopening : (['0', c], base) ∈ openings) (h : basedLength p ('0' :: c :: r) r ≠ 0) :
        IsInteger (('0' :: c :: r).take (basedLength p ('0' :: c :: r) r)) :=
      isInteger_based ['0', c] hp hopening rfl h
    split_ifs at h ⊢ with hx ho hb
    · exact hbased (fun _ => isDigitOf_hex) (by simpa [openings] using hx) h
    · exact hbased (fun _ => isDigitOf_octal) (by simpa [openings] using ho) h
    · exact hbased (fun _ => isDigitOf_binary) (by simpa [openings] using hb) h
    · exact isInteger_plain h
  · exact isInteger_plain

/-- Whatever is cut as an integer is one, so it has no sign. -/
theorem isInteger_ofChars {ds : List Char} {n : Nat} (h : Lexeme.ofChars ds = (.integer, n)) :
    IsInteger (ds.take n) := by
  unfold Lexeme.ofChars at h
  split at h
  · cases h
  · dsimp only at h
    split_ifs at h with hstart hfloat hinteger
    · cases h
    · cases h
    · cases h
      exact isInteger_integerLength hinteger.ne'
    · repeat' split at h
      all_goals cases h

/-! ## The value of a token -/

/-- The token without its suffix and its underscores. -/
def cleaned (cs : List Char) : List Char :=
  withoutUnderscores (cs.reverse.dropWhile fun c => c == 'l' || c == 'L').reverse

/-- The integer that a cleaned token writes, if it is small enough. -/
def announcedInteger? (clean : List Char) : Option Int :=
  match clean with
  | '0' :: c :: r =>
    if c = 'x' || c = 'X' then basedInteger? 16 r
    else if c = 'o' || c = 'O' then basedInteger? 8 r
    else if c = 'b' || c = 'B' then basedInteger? 2 r
    else basedInteger? 10 clean
  | _ => basedInteger? 10 clean

lemma integer_eq (text : String) :
    integer text = match announcedInteger? (cleaned text.toList) with
      | some n => .ok (.int n)
      | none => match (Decimal.readFloat? (cleaned text.toList)).bind finite? with
        | some v => .ok v
        | none => .error (.number text) := rfl

namespace IntegerToken

lemma not_suffix (k : IntegerToken) (hc : c ∈ k.digits) : (c == 'l' || c == 'L') = false := by
  rcases k.areDigits c hc with rfl | ⟨d, hd, -⟩
  · rfl
  · have hl : c ≠ 'l' := by
      rintro rfl
      cases hd
    have hL : c ≠ 'L' := by
      rintro rfl
      cases hd
    simp [hl, hL]

/-- Taking the suffix and the underscores away leaves the opening and the digits. -/
lemma cleaned_text (k : IntegerToken) : cleaned k.text.toList = k.opening ++ k.plainDigits := by
  have hsuffix : ∀ c ∈ k.suffix.reverse, (c == 'l' || c == 'L') = true := by
    have hclosed := k.closed
    simp only [List.mem_cons, List.not_mem_nil, or_false] at hclosed
    rcases hclosed with h | h | h <;> simp [h]
  have hopening : withoutUnderscores k.opening = k.opening := by
    have hannounced := k.announced
    simp only [openings, List.mem_cons, Prod.mk.injEq, List.not_mem_nil, or_false] at hannounced
    rcases hannounced with h | h | h | h | h | h | h <;> rw [h.1] <;> rfl
  -- The last digit or underscore stops the search for the suffix.
  have hdigits : (k.digits.reverse ++ k.opening.reverse).dropWhile
      (fun c => c == 'l' || c == 'L') = k.digits.reverse ++ k.opening.reverse := by
    rw [List.dropWhile_append, List.dropWhile_eq_self_iff.2, if_neg]
    · obtain ⟨c, hc, -⟩ := k.hasDigit
      simpa using List.ne_nil_of_mem hc
    · intro hlt
      simpa using k.not_suffix (List.mem_reverse.1 (List.getElem_mem hlt))
  rw [cleaned, text, String.toList_ofList, List.reverse_append, List.reverse_append,
    List.dropWhile_append_of_pos hsuffix, hdigits, List.reverse_append, List.reverse_reverse,
    List.reverse_reverse, withoutUnderscores, List.filter_append, ← withoutUnderscores, hopening,
    plainDigits, withoutUnderscores]

/-- Decimal digits announce no other base. -/
lemma announcedInteger?_of_isDigitOf {ds : List Char} (hds : ∀ c ∈ ds, IsDigitOf 10 c) :
    announcedInteger? ds = basedInteger? 10 ds := by
  unfold announcedInteger?
  split
  · rename_i c r
    have hletters : ∀ x ∈ ['x', 'X', 'o', 'O', 'b', 'B'], c ≠ x := by
      rintro x hx rfl
      have hnone :
          (['x', 'X', 'o', 'O', 'b', 'B'].all fun x => !decide (IsDigitOf 10 x)) = true := by
        decide
      simpa [hds c (by simp)] using List.all_eq_true.1 hnone c hx
    simp only [List.forall_mem_cons] at hletters
    simp [hletters]
  · rfl

lemma announcedInteger?_text (k : IntegerToken) :
    announcedInteger? (k.opening ++ k.plainDigits) =
      if k.value ≤ largest then some (k.value : Int) else none := by
  rw [← k.basedInteger?_plainDigits]
  have hannounced := k.announced
  have hdigits := k.isDigitOf
  simp only [openings, List.mem_cons, Prod.mk.injEq, List.not_mem_nil, or_false] at hannounced
  rcases hannounced with h | h | h | h | h | h | h <;> rw [h.1, h.2]
  · rw [h.2] at hdigits
    exact announcedInteger?_of_isDigitOf hdigits
  all_goals rfl

lemma integer_text (k : IntegerToken) (h : k.value ≤ largest) :
    integer k.text = .ok (.int k.value) := by
  rw [integer_eq, k.cleaned_text, k.announcedInteger?_text, if_pos h]

end IntegerToken

lemma exists_float {x : Option Float} {v : Value} (h : x.bind finite? = some v) :
    ∃ y, v = .float y := by
  obtain ⟨y, -, hy⟩ := Option.bind_eq_some_iff.1 h
  unfold finite? at hy
  split at hy
  · cases hy
    exact ⟨y, rfl⟩
  · cases hy

/-- What is no integer is a float or no number at all. -/
lemma integer_of_none (h : announcedInteger? (cleaned text.toList) = none) :
    (∃ x, integer text = .ok (.float x)) ∨ integer text = .error (.number text) := by
  rw [integer_eq, h]
  cases hfloat : (Decimal.readFloat? (cleaned text.toList)).bind finite? with
  | none => exact Or.inr rfl
  | some v =>
    obtain ⟨x, rfl⟩ := exists_float hfloat
    exact Or.inl ⟨x, rfl⟩

lemma IntegerToken.integer_text_of_lt (k : IntegerToken) (h : largest < k.value) :
    (∃ x, integer k.text = .ok (.float x)) ∨ integer k.text = .error (.number k.text) := by
  refine integer_of_none ?_
  rw [k.cleaned_text, k.announcedInteger?_text, if_neg (Nat.not_le.2 h)]

/-! ## How large integers are -/

lemma basedInteger?_bounds {base : Nat} {ds : List Char} {n : Int}
    (h : basedInteger? base ds = some n) : 0 ≤ n ∧ n ≤ largest := by
  unfold basedInteger? at h
  split at h
  · cases h
  · dsimp only at h
    split at h
    · rename_i hle
      cases h
      exact ⟨Int.natCast_nonneg _, Int.ofNat_le.2 hle⟩
    · cases h

lemma announcedInteger?_bounds {clean : List Char} {n : Int}
    (h : announcedInteger? clean = some n) : 0 ≤ n ∧ n ≤ largest := by
  unfold announcedInteger? at h
  split at h
  · split_ifs at h <;> exact basedInteger?_bounds h
  · exact basedInteger?_bounds h

lemma integer_bounds {n : Int} (h : integer text = .ok (.int n)) : 0 ≤ n ∧ n ≤ largest := by
  cases hsome : announcedInteger? (cleaned text.toList) with
  | some m =>
    rw [integer_eq, hsome] at h
    cases h
    exact announcedInteger?_bounds hsome
  | none =>
    obtain ⟨x, hx⟩ | herror := integer_of_none hsome
    · rw [hx] at h
      cases h
    · rw [herror] at h
      cases h

/-- Whether an integer is no larger than the largest one, on either side of zero. -/
def InRange : Value → Prop
  | .int n => |n| ≤ largest
  | _ => True

variable {l : Label} {cs : List Tree} {t : Tree} {v w : Value}

lemma inRange_of_not_isNumber (h : ¬ IsNumber v) : InRange v := by
  cases v with
  | int n => exact absurd rfl h
  | _ => trivial

lemma inRange_integer (h : integer text = .ok v) : InRange v := by
  cases v with
  | int n =>
    obtain ⟨hlow, hhigh⟩ := integer_bounds h
    rwa [InRange, abs_of_nonneg hlow]
  | _ => trivial

lemma inRange_float (h : float text = .ok v) : InRange v := by
  unfold float at h
  split at h
  · rename_i hfloat
    cases h
    obtain ⟨x, rfl⟩ := exists_float hfloat
    trivial
  · cases h

lemma inRange_negate (hv : InRange v) (h : negate? v = some w) : InRange w := by
  cases v with
  | int n =>
    cases h
    rwa [InRange, abs_neg]
  | float x =>
    cases h
    trivial
  | _ => cases h

lemma inRange_signed {operator : String} (hv : InRange v) (h : signed l operator v = .ok w) :
    InRange w := by
  unfold signed at h
  split at h
  · cases h
    exact hv
  · cases h
    exact hv
  · split at h
    · rename_i hnegate
      cases h
      exact inRange_negate hv hnegate
    · cases h
  · cases h

lemma exists_of_evaluate_sign (hk : l.kind = .unaryOperator) (h : evaluate (.node l cs) = .ok v) :
    ∃ c ∈ cs, ∃ w, evaluate c = .ok w ∧ signed l (operatorText cs) w = .ok v := by
  rw [evaluate_unaryOperator hk, playing_eq] at h
  cases hargument : cs.find? fun c => c.role == some .argument with
  | none =>
    rw [hargument] at h
    cases h
  | some c =>
    rw [hargument, Option.map_some, Option.getD_some] at h
    cases hc : evaluate c with
    | error e =>
      rw [hc] at h
      cases h
    | ok w =>
      rw [hc] at h
      exact ⟨c, List.mem_of_find?_eq_some hargument, w, hc, h⟩

lemma exists_of_evaluate_brackets (hk : l.kind = .parenthesizedExpression)
    (h : evaluate (.node l cs) = .ok v) : ∃ c ∈ cs, evaluate c = .ok v := by
  rw [evaluate, hk] at h
  simp only [first_eq] at h
  cases hfirst : (cs.filter Tree.isPart).head? with
  | none =>
    rw [hfirst] at h
    cases h
  | some c =>
    rw [hfirst] at h
    exact ⟨c, (List.mem_filter.1 (List.mem_of_head? hfirst)).1, h⟩

/-- No tree has a value out of range. -/
theorem inRange_evaluate (h : evaluate t = .ok v) : InRange v := by
  induction t using Tree.induction generalizing v with
  | h l cs ih =>
    by_cases hnumber : IsNumber v
    case neg => exact inRange_of_not_isNumber hnumber
    -- A number comes from a token, or from a child by a sign or as it is.
    have hnumeric := (isNumber_iff h).1 hnumber
    unfold isNumeric at hnumeric
    split at hnumeric <;> rename_i hk
    · rw [evaluate, hk] at h
      exact inRange_integer h
    · rw [evaluate, hk] at h
      exact inRange_float h
    · obtain ⟨c, hmem, w, hw, hsigned⟩ := exists_of_evaluate_sign hk h
      exact inRange_signed (ih c hmem hw) hsigned
    · obtain ⟨c, hmem, hc⟩ := exists_of_evaluate_brackets hk h
      exact ih c hmem hc
    · cases hnumeric

/-! ## Signs and brackets -/

/-- A token in any nesting of signs and brackets, and the number it comes to. -/
inductive SignedInteger : Tree → Int → Prop
  | token {l : Label} {cs : List Tree} (k : IntegerToken) (hkind : l.kind = .integer)
      (htext : l.text = k.text) : SignedInteger (.node l cs) k.value
  | brackets {l : Label} {cs : List Tree} {t : Tree} {v : Int}
      (hkind : l.kind = .parenthesizedExpression) (hpart : cs.filter Tree.isPart = [t])
      (h : SignedInteger t v) : SignedInteger (.node l cs) v
  | plus {l : Label} {cs : List Tree} {t : Tree} {v : Int} (hkind : l.kind = .unaryOperator)
      (hsign : operatorText cs = "+")
      (hargument : cs.find? (fun c => c.role == some .argument) = some t) (h : SignedInteger t v) :
      SignedInteger (.node l cs) v
  | minus {l : Label} {cs : List Tree} {t : Tree} {v : Int} (hkind : l.kind = .unaryOperator)
      (hsign : operatorText cs = "-")
      (hargument : cs.find? (fun c => c.role == some .argument) = some t) (h : SignedInteger t v) :
      SignedInteger (.node l cs) (-v)

/-- The value of an expression is a float, or a number in it cannot be read. -/
def IsRefused (t : Tree) : Prop :=
  (∃ x, evaluate t = .ok (.float x)) ∨ ∃ text, evaluate t = .error (.number text)

lemma evaluate_brackets (hkind : l.kind = .parenthesizedExpression)
    (hpart : cs.filter Tree.isPart = [t]) : evaluate (.node l cs) = evaluate t := by
  rw [evaluate, hkind]
  simp only [first_eq, hpart, List.head?_cons, Option.map_some, Option.getD_some]

lemma evaluate_sign (hkind : l.kind = .unaryOperator)
    (hargument : cs.find? (fun c => c.role == some .argument) = some t) :
    evaluate (.node l cs) = evaluate t >>= signed l (operatorText cs) := by
  rw [evaluate_unaryOperator hkind, playing_eq, hargument, Option.map_some, Option.getD_some]

/-- A sign before a float makes a float, and what cannot be read stays so. -/
lemma isRefused_sign (hkind : l.kind = .unaryOperator)
    (hsign : operatorText cs = "+" ∨ operatorText cs = "-")
    (hargument : cs.find? (fun c => c.role == some .argument) = some t) (ht : IsRefused t) :
    IsRefused (.node l cs) := by
  unfold IsRefused
  rw [evaluate_sign hkind hargument]
  obtain ⟨x, hx⟩ | ⟨text, htext⟩ := ht
  · rw [hx]
    rcases hsign with hplus | hminus
    · exact Or.inl ⟨x, by rw [hplus]; rfl⟩
    · exact Or.inl ⟨-x, by rw [hminus]; rfl⟩
  · rw [htext]
    exact Or.inr ⟨text, rfl⟩

lemma evaluate_of_le {n : Int} (ht : SignedInteger t n) (hn : |n| ≤ largest) :
    evaluate t = .ok (.int n) := by
  induction ht with
  | token k hkind htext =>
    rw [evaluate, hkind]
    dsimp only
    rw [htext]
    exact k.integer_text (Int.ofNat_le.1 (le_trans (le_abs_self _) hn))
  | brackets hkind hpart _ ih => rw [evaluate_brackets hkind hpart, ih hn]
  | plus hkind hsign hargument _ ih =>
    rw [evaluate_sign hkind hargument, ih hn, hsign]
    rfl
  | minus hkind hsign hargument _ ih =>
    rw [abs_neg] at hn
    rw [evaluate_sign hkind hargument, ih hn, hsign]
    rfl

lemma isRefused_of_lt {n : Int} (ht : SignedInteger t n) (hn : largest < |n|) : IsRefused t := by
  induction ht with
  | @token l cs k hkind htext =>
    have hvalue : evaluate (.node l cs) = integer k.text := by
      rw [evaluate, hkind]
      dsimp only
      rw [htext]
    rw [Nat.abs_cast] at hn
    unfold IsRefused
    rw [hvalue]
    exact (k.integer_text_of_lt (Int.ofNat_lt.1 hn)).imp id fun h => ⟨_, h⟩
  | brackets hkind hpart _ ih =>
    unfold IsRefused
    rw [evaluate_brackets hkind hpart]
    exact ih hn
  | plus hkind hsign hargument _ ih => exact isRefused_sign hkind (Or.inl hsign) hargument (ih hn)
  | minus hkind hsign hargument _ ih =>
    rw [abs_neg] at hn
    exact isRefused_sign hkind (Or.inr hsign) hargument (ih hn)

lemma largest_eq : (largest : Int) = 2 ^ 63 - 1 := by decide

/-- **An integer keeps its value through signs and brackets**, or is read as a float, or refused;
and every integer that is a value can be negated in 64 bits. -/
theorem evaluate_signedInteger :
    (∀ ds n, Lexeme.ofChars ds = (.integer, n) → IsInteger (ds.take n)) ∧
    (∀ t v, SignedInteger t v →
      (|v| ≤ 2 ^ 63 - 1 → evaluate t = .ok (.int v)) ∧
      (2 ^ 63 - 1 < |v| → (∃ x, evaluate t = .ok (.float x)) ∨
        ∃ text, evaluate t = .error (.number text))) ∧
    ∀ t n, evaluate t = .ok (.int n) →
      (Int64.ofInt n).toInt = n ∧ (-Int64.ofInt n).toInt = -n := by
  refine ⟨fun ds n => isInteger_ofChars, fun t v ht => ⟨?_, ?_⟩, fun t n h => ?_⟩
  · rw [← largest_eq]
    exact evaluate_of_le ht
  · rw [← largest_eq]
    exact isRefused_of_lt ht
  · have hrange : |n| ≤ 2 ^ 63 - 1 := largest_eq ▸ inRange_evaluate h
    obtain ⟨hlow, hhigh⟩ := abs_le.1 hrange
    have hkept : (Int64.ofInt n).toInt = n := Int64.toInt_ofInt_of_le (by omega) (by omega)
    refine ⟨hkept, ?_⟩
    rw [Int64.toInt_neg, hkept]
    exact Int.bmod_eq_of_le (by omega) (by omega)

theorem evaluate_signedInteger_hex :
    ∃ t, (parse "-(0x_1FL)").map (fun root => root.parts.flatMap Tree.parts) = some [t] ∧
      SignedInteger t (-31) ∧ evaluate t = .ok (.int (-31)) := by
  have hdigits : ∀ c ∈ ['_', '1', 'F'], c = '_' ∨ IsDigitOf 16 c := by
    simp only [List.forall_mem_cons, List.not_mem_nil, false_imp_iff, implies_true]
    decide
  have hread : (parse "-(0x_1FL)").any (fun root =>
      (root.parts.flatMap Tree.parts).length == 1 && (root.parts.flatMap Tree.parts).all fun t =>
        t.kind == .unaryOperator && operatorText t.children == "-" &&
          (t.children.find? fun c => c.role == some .argument).any fun b =>
            b.kind == .parenthesizedExpression && (b.children.filter Tree.isPart).length == 1 &&
              (b.children.filter Tree.isPart).all fun i =>
                i.kind == .integer && i.text == "0x_1FL") = true := by
    decide +kernel
  obtain ⟨root, hroot, h⟩ := (Option.any_eq_true _ _).1 hread
  simp only [Bool.and_eq_true, beq_iff_eq] at h
  obtain ⟨⟨l, cs⟩, hparts⟩ := List.length_eq_one_iff.1 h.1
  rw [hparts] at h
  simp only [List.all_cons, List.all_nil, Bool.and_true, Bool.and_eq_true, beq_iff_eq] at h
  obtain ⟨-, ⟨hkind, hsign⟩, hargument⟩ := h
  obtain ⟨⟨lb, bs⟩, hb, h⟩ := (Option.any_eq_true _ _).1 hargument
  simp only [Bool.and_eq_true, beq_iff_eq] at h
  obtain ⟨⟨hbrackets, hone⟩, hall⟩ := h
  obtain ⟨⟨li, is⟩, hpart⟩ := List.length_eq_one_iff.1 hone
  rw [hpart] at hall
  simp only [List.all_cons, List.all_nil, Bool.and_true, Bool.and_eq_true, beq_iff_eq] at hall
  have hinteger : SignedInteger (.node li is) 31 :=
    .token ⟨['0', 'x'], 16, ['_', '1', 'F'], ['L'], by decide, hdigits, ⟨'1', by simp⟩, by decide⟩
      hall.1 hall.2
  have hsigned : SignedInteger (.node l cs) (-31) :=
    .minus hkind hsign hb (.brackets hbrackets hpart hinteger)
  exact ⟨_, by rw [hroot, Option.map_some, hparts], hsigned,
    (evaluate_signedInteger.2.1 _ _ hsigned).1 (by decide)⟩

end AddonAtlas.Source.Literal
