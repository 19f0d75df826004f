import AddonAtlas.Text.Lines
import Mathlib.Data.List.Basic
import Mathlib.Data.List.TakeWhile
import Mathlib.Tactic.Lemma

/-!
Texts, their lines, and the blank space around them.

A text is read line by line as it is put together: what stands behind a line end is read on its own.
Trimming is the only way to take blank space off both ends of a text until none is left there. Lines
that are not blank can be counted in one pass, and apart on both sides of a line end.
-/

namespace AddonAtlas.Text

variable {line w r acc : List Char} {seen : Bool}

/-! ## Lines -/

lemma withoutReturn_of_getLast? (h : line.getLast? ≠ some '\r') : withoutReturn line = line :=
  if_neg h

lemma withoutReturn_subset (line : List Char) : withoutReturn line ⊆ line := by
  unfold withoutReturn
  split
  · exact List.dropLast_subset line
  · exact List.Subset.refl line

lemma linesFrom_append_of_not_mem (h : '\n' ∉ line) (acc r : List Char) :
    linesFrom acc (line ++ r) = linesFrom (line.reverse ++ acc) r := by
  induction line generalizing acc with
  | nil => rfl
  | cons c line ih =>
    obtain ⟨hc, hline⟩ := not_or.1 (List.mem_cons.not.1 h)
    rw [List.cons_append, linesFrom, if_neg (Ne.symm hc), ih hline]
    simp

/-- The first line of a text is what stands before its first line end. -/
lemma lines_cons_line (h : '\n' ∉ line) (r : List Char) :
    lines (line ++ '\n' :: r) = withoutReturn line :: lines r := by
  rw [lines, linesFrom_append_of_not_mem h, List.append_nil, linesFrom, if_pos rfl,
    List.reverse_reverse, lines]

/-- Lines that are written one after another are read again. -/
lemma lines_flatMap {ls : List (List Char)}
    (h : ∀ line ∈ ls, '\n' ∉ line ∧ line.getLast? ≠ some '\r') :
    lines (ls.flatMap (· ++ ['\n'])) = ls := by
  induction ls with
  | nil => rfl
  | cons line ls ih =>
    obtain ⟨⟨hfeed, hreturn⟩, hls⟩ := List.forall_mem_cons.1 h
    rw [List.flatMap_cons, List.append_assoc, List.singleton_append, lines_cons_line hfeed,
      withoutReturn_of_getLast? hreturn, ih hls]

lemma not_mem_of_mem_linesFrom (hacc : '\n' ∉ acc) (h : line ∈ linesFrom acc w) :
    '\n' ∉ line := by
  induction w generalizing acc with
  | nil =>
    rw [linesFrom] at h
    split at h
    · cases h
    · rw [List.mem_singleton.1 h]
      simpa using hacc
  | cons c w ih =>
    rw [linesFrom] at h
    split at h
    · rcases List.mem_cons.1 h with rfl | h
      · intro hmem
        exact hacc (List.mem_reverse.1 (withoutReturn_subset _ hmem))
      · exact ih (by simp) h
    · rename_i hc
      exact ih (by simp [hacc, Ne.symm hc]) h

lemma not_mem_of_mem_lines (h : line ∈ lines w) : '\n' ∉ line :=
  not_mem_of_mem_linesFrom (by simp) h

/-! ## Blank space -/

/-- A text is what is left of another one without the blank space around it. -/
structure IsTrimmed (inner whole : List Char) : Prop where
  around : ∃ front back, whole = front ++ inner ++ back ∧
    (∀ c ∈ front, isBlank c = true) ∧ ∀ c ∈ back, isBlank c = true
  first : ∀ c ∈ inner.head?, isBlank c = false
  last : ∀ c ∈ inner.getLast?, isBlank c = false

lemma dropWhile_of_head? {p : Char → Bool} (h : ∀ c ∈ w.head?, p c = false) :
    w.dropWhile p = w := by
  cases w with
  | nil => rfl
  | cons c w => exact List.dropWhile_cons_of_neg (by simp [h c rfl])

lemma isTrimmed_trim (w : List Char) : IsTrimmed (trim w) w := by
  have hstart : w = w.takeWhile isBlank ++ trimStart w := List.takeWhile_append_dropWhile.symm
  have hend : trimStart w = trim w ++ ((trimStart w).reverse.takeWhile isBlank).reverse := by
    rw [trim, trimEnd, ← List.reverse_append, List.takeWhile_append_dropWhile, List.reverse_reverse]
  refine ⟨⟨w.takeWhile isBlank, ((trimStart w).reverse.takeWhile isBlank).reverse, ?_, ?_, ?_⟩,
    ?_, ?_⟩
  · rw [List.append_assoc, ← hend]
    exact hstart
  · exact fun c hc => List.mem_takeWhile_imp hc
  · exact fun c hc => List.mem_takeWhile_imp (List.mem_reverse.1 hc)
  · intro c hc
    have hfirst : (trimStart w).head? = some c := by
      rw [hend, List.head?_append, hc, Option.some_or]
    have hblank := List.head?_dropWhile_not isBlank w
    rw [← trimStart, hfirst] at hblank
    simpa using hblank
  · intro c hc
    rw [trim, trimEnd, List.getLast?_reverse] at hc
    have hblank := List.head?_dropWhile_not isBlank (trimStart w).reverse
    rw [hc] at hblank
    simpa using hblank

/-- There is only one way to trim. -/
lemma IsTrimmed.eq_trim {inner : List Char} (h : IsTrimmed inner w) : inner = trim w := by
  obtain ⟨⟨front, back, rfl, hfront, hback⟩, hfirst, hlast⟩ := h
  have hend : trimEnd (inner ++ back) = inner := by
    rw [trimEnd, List.reverse_append, List.dropWhile_append_of_pos (by simpa using hback),
      dropWhile_of_head? (by simpa using hlast), List.reverse_reverse]
  rw [trim, trimStart, List.append_assoc, List.dropWhile_append_of_pos hfront]
  cases inner with
  | nil =>
    have hnone : back.dropWhile isBlank = [] := List.dropWhile_eq_nil_iff.2 hback
    simp [hnone, trimEnd]
  | cons c inner =>
    rw [dropWhile_of_head? (by simpa using hfirst), hend]

lemma trim_append {front : List Char} (h : ∀ c ∈ front, isBlank c = true) (w : List Char) :
    trim (front ++ w) = trim w := by
  rw [trim, trim, trimStart, trimStart, List.dropWhile_append_of_pos h]

lemma trim_trim (w : List Char) : trim (trim w) = trim w := by
  obtain ⟨-, hfirst, hlast⟩ := isTrimmed_trim w
  have hself : IsTrimmed (trim w) (trim w) := ⟨⟨[], [], by simp, by simp, by simp⟩, hfirst, hlast⟩
  exact hself.eq_trim.symm

lemma trim_subset (w : List Char) : trim w ⊆ w := by
  obtain ⟨front, back, hw, -, -⟩ := (isTrimmed_trim w).around
  intro c hc
  rw [hw]
  simp [hc]

lemma trim_eq_nil_iff : trim w = [] ↔ ∀ c ∈ w, isBlank c = true := by
  constructor
  · intro h
    obtain ⟨front, back, hw, hfront, hback⟩ := (isTrimmed_trim w).around
    rw [h, List.append_nil] at hw
    rw [hw]
    exact fun c hc => (List.mem_append.1 hc).elim (hfront c) (hback c)
  · intro h
    have hnone : IsTrimmed [] w := ⟨⟨w, [], by simp, h, by simp⟩, by simp, by simp⟩
    exact hnone.eq_trim.symm

/-! ## Lines that are not blank -/

/-- The number of lines that are not blank. -/
def visibleLines (w : List Char) : Nat := ((lines w).filter fun l => !(trim l).isEmpty).length

/-- The same number, found character by character. What has been seen of a line is whether it is
blank so far. -/
def countVisible : (seen : Bool) → List Char → Nat
  | seen, [] => seen.toNat
  | seen, c :: r =>
    if c = '\n' then seen.toNat + countVisible false r else countVisible (seen || !isBlank c) r

/-- Whether some character is not blank. -/
def isVisible (w : List Char) : Bool := w.any fun c => !isBlank c

lemma isVisible_eq (w : List Char) : isVisible w = !(trim w).isEmpty := by
  rw [Bool.eq_iff_iff, Bool.not_eq_true', ← Bool.not_eq_true, List.isEmpty_iff, trim_eq_nil_iff]
  simp [isVisible]

/-- A carriage return is blank. -/
lemma isVisible_withoutReturn (w : List Char) : isVisible (withoutReturn w) = isVisible w := by
  unfold withoutReturn
  split
  · rename_i hlast
    obtain ⟨front, rfl⟩ := List.getLast?_eq_some_iff.1 hlast
    have hreturn : isBlank '\r' = true := by decide
    simp [isVisible, hreturn]
  · rfl

lemma length_filter_linesFrom (acc w : List Char) :
    ((linesFrom acc w).filter isVisible).length = countVisible (isVisible acc) w := by
  have hreverse (acc : List Char) : isVisible acc.reverse = isVisible acc := List.any_reverse
  induction w generalizing acc with
  | nil =>
    rw [linesFrom, countVisible]
    cases acc with
    | nil => rfl
    | cons c acc =>
      rw [List.isEmpty_cons, if_neg Bool.false_ne_true, List.filter_singleton, hreverse]
      cases isVisible (c :: acc) <;> rfl
  | cons c w ih =>
    rw [linesFrom, countVisible]
    split
    · have hrest : ((linesFrom [] w).filter isVisible).length = countVisible false w := ih []
      rw [List.filter_cons, isVisible_withoutReturn, hreverse]
      cases isVisible acc <;> simp [hrest, Nat.add_comm]
    · rw [ih, isVisible, List.any_cons, Bool.or_comm]
      rfl

lemma visibleLines_eq (w : List Char) : visibleLines w = countVisible false w := by
  rw [visibleLines, ← List.filter_congr fun l _ => isVisible_eq l]
  exact length_filter_linesFrom [] w

/-- Characters of a line tell whether it is blank. -/
lemma countVisible_append (h : '\n' ∉ w) (seen : Bool) (r : List Char) :
    countVisible seen (w ++ r) = countVisible (seen || isVisible w) r := by
  induction w generalizing seen with
  | nil => simp [isVisible]
  | cons c w ih =>
    obtain ⟨hc, hw⟩ := not_or.1 (List.mem_cons.not.1 h)
    rw [List.cons_append, countVisible, if_neg (Ne.symm hc), ih hw, isVisible, isVisible,
      List.any_cons, Bool.or_assoc]

/-- A line break closes a line as the end of the text does. -/
lemma countVisible_append_feed (seen : Bool) (w r : List Char) :
    countVisible seen (w ++ '\n' :: r) = countVisible seen w + countVisible false r := by
  induction w generalizing seen with
  | nil => simp [countVisible]
  | cons c w ih =>
    rw [List.cons_append, countVisible, countVisible]
    split
    · rw [ih, Nat.add_assoc]
    · exact ih _

/-- What closes a line. -/
inductive LineEnd
  | plain
  | withReturn
  deriving DecidableEq, Repr

def LineEnd.text : LineEnd → List Char
  | .plain => ['\n']
  | .withReturn => ['\r', '\n']

lemma countVisible_concat_return (seen : Bool) (w : List Char) :
    countVisible seen (w ++ ['\r']) = countVisible seen w := by
  have hreturn : isBlank '\r' = true := by decide
  induction w generalizing seen with
  | nil => simp [countVisible, hreturn]
  | cons c w ih => simp only [List.cons_append, countVisible, ih]

lemma countVisible_lineEnd (seen : Bool) (w : List Char) (e : LineEnd) (r : List Char) :
    countVisible seen (w ++ (e.text ++ r)) = countVisible seen w + countVisible false r := by
  cases e with
  | plain => exact countVisible_append_feed seen w r
  | withReturn =>
    have hsplit : w ++ (LineEnd.withReturn.text ++ r) = (w ++ ['\r']) ++ '\n' :: r := by
      simp [LineEnd.text]
    rw [hsplit, countVisible_append_feed, countVisible_concat_return]

/-- Texts on both sides of a line end are counted apart. -/
lemma visibleLines_append (w : List Char) (e : LineEnd) (r : List Char) :
    visibleLines (w ++ (e.text ++ r)) = visibleLines w + visibleLines r := by
  rw [visibleLines_eq, visibleLines_eq, visibleLines_eq, countVisible_lineEnd]

lemma countVisible_pos (h : (seen || isVisible w) = true) : 0 < countVisible seen w := by
  induction w generalizing seen with
  | nil =>
    obtain rfl : seen = true := by simpa [isVisible] using h
    exact Nat.one_pos
  | cons c w ih =>
    rw [countVisible]
    split
    · rename_i hc
      have hfeed : isBlank '\n' = true := by decide
      have hrest : seen = true ∨ isVisible w = true := by simpa [isVisible, hc, hfeed] using h
      rcases hrest with rfl | hw
      · exact Nat.add_pos_left Nat.one_pos _
      · exact Nat.add_pos_right _ (ih (by simp [hw]))
    · exact ih (by rw [Bool.or_assoc]; exact h)

lemma visibleLines_pos (h : isVisible w = true) : 0 < visibleLines w := by
  rw [visibleLines_eq]
  exact countVisible_pos (by simp [h])

lemma visibleLines_le_one (h : '\n' ∉ w) : visibleLines w ≤ 1 := by
  rw [visibleLines_eq, ← List.append_nil w, countVisible_append h, countVisible]
  exact Bool.toNat_le _

end AddonAtlas.Text
