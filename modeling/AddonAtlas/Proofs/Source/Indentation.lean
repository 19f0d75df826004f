import AddonAtlas.Source.Indentation
import AddonAtlas.Proofs.Text.Lines
import Mathlib.Data.List.Forall2

/-!
What mending makes of the lines of a text.

Every line keeps its place. It begins with blanks up to the column that its margin reached, and
goes on with what it held between blank space. A mended line is mended already, since neither the
column nor what stands behind it changes again. Blank space at the end of a line goes, but not the
margin of a line that holds nothing else.
-/

namespace AddonAtlas.Source

open AddonAtlas.Text

variable {line : List Char}

/-! ## Margins -/

/-- Blanks and tabs make up the margin of a line. -/
def isMargin (c : Char) : Bool := c = ' ' || c = '\t'

/-- The column behind a character of the margin: a tab leads to the next multiple of four. -/
def nextColumn (column : Nat) (c : Char) : Nat :=
  if c = '\t' then 4 * (column / 4 + 1) else column + 1

/-- The column behind the margin of a line. -/
def marginColumn (line : List Char) : Nat := (line.takeWhile isMargin).foldl nextColumn 0

lemma indentWidth_eq (column : Nat) (line : List Char) :
    indentWidth column line = (line.takeWhile isMargin).foldl nextColumn column := by
  induction line generalizing column with
  | nil => rfl
  | cons c line ih =>
    by_cases hblank : c = ' '
    · subst hblank
      rw [indentWidth, ih]
      rfl
    by_cases htab : c = '\t'
    · subst htab
      have hstop : column + (4 - column % 4) = nextColumn column '\t' := by
        rw [nextColumn, if_pos rfl]
        omega
      rw [indentWidth, ih, hstop]
      rfl
    -- The margin ends where neither a blank nor a tab stands.
    have hmargin : isMargin c = false := by simp [isMargin, hblank, htab]
    have hend : indentWidth column (c :: line) = column := by
      unfold indentWidth
      split <;> simp_all
    rw [hend, List.takeWhile_cons_of_neg (by simp [hmargin]), List.foldl_nil]

lemma isBlank_of_isMargin {c : Char} (h : isMargin c = true) : isBlank c = true := by
  rw [isMargin, Bool.or_eq_true, decide_eq_true_eq, decide_eq_true_eq] at h
  rcases h with rfl | rfl <;> decide

lemma foldl_nextColumn_replicate (n column : Nat) :
    (List.replicate n ' ').foldl nextColumn column = column + n := by
  induction n generalizing column with
  | zero => rfl
  | succ n ih =>
    rw [List.replicate_succ, List.foldl_cons, ih, nextColumn, if_neg (by decide)]
    omega

/-- Blanks before a text that begins with no blank space reach just as far as there are blanks. -/
lemma marginColumn_blanks {content : List Char} (h : ∀ c ∈ content.head?, isBlank c = false)
    (n : Nat) : marginColumn (List.replicate n ' ' ++ content) = n := by
  have hcontent : content.takeWhile isMargin = [] := by
    cases content with
    | nil => rfl
    | cons c content =>
      refine List.takeWhile_cons_of_neg fun hc => ?_
      simp [isBlank_of_isMargin hc] at h
  have hblanks : ∀ c ∈ List.replicate n ' ', isMargin c = true := fun c hc => by
    rw [List.eq_of_mem_replicate hc]
    rfl
  rw [marginColumn, List.takeWhile_append_of_pos hblanks, hcontent, List.append_nil,
    foldl_nextColumn_replicate, Nat.zero_add]

/-! ## Lines -/

/-- A line with blanks for its margin and no blank space at its end. -/
def mendLine (line : List Char) : List Char :=
  List.replicate (marginColumn line) ' ' ++ trim line

lemma fixLine_eq (line : List Char) : fixLine line = mendLine line ++ ['\n'] := by
  rw [fixLine, indentWidth_eq, mendLine, marginColumn]

lemma mendLine_mendLine (line : List Char) : mendLine (mendLine line) = mendLine line := by
  have hblanks : ∀ c ∈ List.replicate (marginColumn line) ' ', isBlank c = true := fun c hc => by
    rw [List.eq_of_mem_replicate hc]
    decide
  have hcolumn : marginColumn (mendLine line) = marginColumn line :=
    marginColumn_blanks (isTrimmed_trim line).first _
  rw [mendLine, hcolumn, mendLine, trim_append hblanks, trim_trim]

lemma not_mem_mendLine (h : '\n' ∉ line) : '\n' ∉ mendLine line := by
  intro hmem
  rcases List.mem_append.1 hmem with hmem | hmem
  · exact absurd (List.eq_of_mem_replicate hmem) (by decide)
  · exact h (trim_subset line hmem)

lemma getLast?_mendLine (line : List Char) : (mendLine line).getLast? ≠ some '\r' := by
  intro h
  rw [mendLine, List.getLast?_append] at h
  cases hlast : (trim line).getLast? with
  | some c =>
    have hblank := (isTrimmed_trim line).last c hlast
    rw [hlast, Option.some_or, Option.some.injEq] at h
    rw [h] at hblank
    exact absurd hblank (by decide)
  | none =>
    rw [hlast, Option.none_or] at h
    exact absurd (List.eq_of_mem_replicate (List.mem_of_getLast? h)) (by decide)

/-! ## Texts -/

lemma toList_fixIndentation (s : String) :
    (fixIndentation s).toList = ((lines s.toList).map mendLine).flatMap (· ++ ['\n']) := by
  rw [fixIndentation, String.toList_ofList, List.flatMap_map]
  exact congrArg (List.flatMap · (lines s.toList)) (funext fixLine_eq)

lemma lines_fixIndentation (s : String) :
    lines (fixIndentation s).toList = (lines s.toList).map mendLine := by
  rw [toList_fixIndentation, lines_flatMap]
  intro line hline
  obtain ⟨old, hold, rfl⟩ := List.mem_map.1 hline
  exact ⟨not_mem_mendLine (not_mem_of_mem_lines hold), getLast?_mendLine old⟩

/-- **Mended indentation.** Mending keeps the number of lines. Each line becomes a run of blanks,
as long as the column that the blanks and tabs at its front reach, with what is left of the line
without the blank space around it. Every line is closed by a line end, and mending a second time
changes nothing. -/
theorem fixIndentation_mends (s : String) :
    (lines (fixIndentation s).toList).length = (lines s.toList).length ∧
    List.Forall₂ (fun old new => ∃ content, IsTrimmed content old ∧
      new = List.replicate (marginColumn old) ' ' ++ content)
      (lines s.toList) (lines (fixIndentation s).toList) ∧
    (fixIndentation s).toList = (lines (fixIndentation s).toList).flatMap (· ++ ['\n']) ∧
    fixIndentation (fixIndentation s) = fixIndentation s := by
  refine ⟨?_, ?_, ?_, ?_⟩
  · rw [lines_fixIndentation, List.length_map]
  · rw [lines_fixIndentation, List.forall₂_map_right_iff]
    exact List.forall₂_same.2 fun line _ => ⟨trim line, isTrimmed_trim line, rfl⟩
  · rw [lines_fixIndentation, toList_fixIndentation]
  · apply String.toList_inj.1
    rw [toList_fixIndentation, lines_fixIndentation, List.map_map, toList_fixIndentation]
    exact congrArg (List.flatMap _) (List.map_congr_left fun line _ => mendLine_mendLine line)

example : fixIndentation "\tx = 1  \n  \ty\n" = "    x = 1\n    y\n" := by decide +kernel

/-! ## Line ends -/

/-- A line has blank space before its end. -/
def EndsBlank (line : List Char) : Prop := ∃ c ∈ line.getLast?, isBlank c = true

/-- A line holds nothing but blank space and begins with a margin. -/
structure IsBareMargin (line : List Char) : Prop where
  margin : ∃ c ∈ line.head?, isMargin c = true
  blank : ∀ c ∈ line, isBlank c = true

lemma lt_nextColumn (column : Nat) (c : Char) : column < nextColumn column c := by
  unfold nextColumn
  split <;> omega

lemma le_foldl_nextColumn (column : Nat) (cs : List Char) :
    column ≤ cs.foldl nextColumn column := by
  induction cs generalizing column with
  | nil => exact Nat.le_refl column
  | cons c cs ih =>
    have hnext := lt_nextColumn column c
    have hrest := ih (nextColumn column c)
    rw [List.foldl_cons]
    omega

lemma marginColumn_pos_iff : 0 < marginColumn line ↔ ∃ c ∈ line.head?, isMargin c = true := by
  cases line with
  | nil => simp [marginColumn]
  | cons c line =>
    cases hc : isMargin c with
    | false => simp [marginColumn, hc]
    | true =>
      have hnext := lt_nextColumn 0 c
      have hrest := le_foldl_nextColumn (nextColumn 0 c) (line.takeWhile isMargin)
      simp only [marginColumn, List.takeWhile_cons_of_pos hc, List.foldl_cons, List.head?_cons,
        Option.mem_some_iff, exists_eq_left', hc, iff_true]
      omega

/-- The margin of a line stays, also where nothing else is left of the line. -/
lemma endsBlank_mendLine : EndsBlank (mendLine line) ↔ IsBareMargin line := by
  have hlast := (isTrimmed_trim line).last
  cases htrim : trim line with
  | nil =>
    have hblank := trim_eq_nil_iff.1 htrim
    have hmend : mendLine line = List.replicate (marginColumn line) ' ' := by
      rw [mendLine, htrim, List.append_nil]
    have hends : EndsBlank (mendLine line) ↔ 0 < marginColumn line := by
      have hspace : isBlank ' ' = true := by decide
      simp [EndsBlank, hmend, List.getLast?_replicate, hspace, Nat.pos_iff_ne_zero]
    rw [hends, marginColumn_pos_iff]
    exact ⟨fun hmargin => ⟨hmargin, hblank⟩, fun h => h.margin⟩
  | cons c content =>
    have hends : (mendLine line).getLast? = (trim line).getLast? := by
      rw [mendLine, List.getLast?_append_of_ne_nil _ (by simp [htrim])]
    constructor
    · rintro ⟨d, hd, hblank⟩
      rw [hlast d (hends ▸ hd)] at hblank
      cases hblank
    · intro h
      rw [trim_eq_nil_iff.2 h.blank] at htrim
      cases htrim

/-- **Line ends.** Mended lines follow one another, each closed by a line end. Before it there is
blank space only where the old line was nothing but blank space behind a margin; such a line is
left as blanks, as many as its margin is wide. So a text is free of blank space at line ends just
if it had no lines of this kind. -/
theorem fixIndentation_endsBlank (s : String) :
    (fixIndentation s).toList = (lines (fixIndentation s).toList).flatMap (· ++ ['\n']) ∧
    List.Forall₂ (fun old new => (EndsBlank new ↔ IsBareMargin old) ∧
      (EndsBlank new → new = List.replicate (marginColumn old) ' '))
      (lines s.toList) (lines (fixIndentation s).toList) ∧
    ((∀ line ∈ lines (fixIndentation s).toList, ¬ EndsBlank line) ↔
      ∀ line ∈ lines s.toList, ¬ IsBareMargin line) := by
  refine ⟨?_, ?_, ?_⟩
  · rw [lines_fixIndentation, toList_fixIndentation]
  · rw [lines_fixIndentation, List.forall₂_map_right_iff]
    refine List.forall₂_same.2 fun line _ => ⟨endsBlank_mendLine, fun hends => ?_⟩
    have hcontent := trim_eq_nil_iff.2 (endsBlank_mendLine.1 hends).blank
    rw [mendLine, hcontent, List.append_nil]
  · rw [lines_fixIndentation, List.forall_mem_map]
    simp only [endsBlank_mendLine]

/-- It is not so that mending takes all blank space from line ends: a line of two blanks stays. -/
theorem not_forall_not_endsBlank :
    ¬ ∀ s : String, ∀ line ∈ lines (fixIndentation s).toList, ¬ EndsBlank line := by
  intro h
  have hmend : lines (fixIndentation "  \n").toList = [[' ', ' ']] := by decide +kernel
  exact h "  \n" [' ', ' '] (by simp [hmend]) ⟨' ', rfl, by decide⟩

end AddonAtlas.Source
