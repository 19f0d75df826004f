import AddonAtlas.Source.Literal
import AddonAtlas.Source.Quoted
import Mathlib.Data.List.Basic
import Mathlib.Tactic.Lemma

/-!
The inside of a string literal, item by item.

Python writes a string as a sequence of items: characters that stand for themselves, escapes and, in
formatted strings, doubled braces. What an item stands for depends on nothing but the item; how far
it reaches may depend on the character behind it.
-/

namespace AddonAtlas.Source

open AddonAtlas.Text

/-- An octal digit. -/
def IsOctal (c : Char) : Prop := c ∈ ['0', '1', '2', '3', '4', '5', '6', '7']

def IsBrace (c : Char) : Prop := c = '\x7b' ∨ c = '\x7d'

instance : DecidablePred IsOctal := fun c => inferInstanceAs (Decidable (c ∈ _))

instance : DecidablePred IsBrace := fun c => inferInstanceAs (Decidable (c = '\x7b' ∨ c = '\x7d'))

/-- The line end at the front of a text. -/
def lineEnd : List Char → List Char
  | '\r' :: '\n' :: _ => ['\r', '\n']
  | '\r' :: _ => ['\r']
  | '\n' :: _ => ['\n']
  | _ => []

/-- An item of the inside of a string. -/
inductive Item
  /-- A character that stands for itself. -/
  | char (c : Char)
  /-- A brace in a formatted string, written twice. -/
  | brace (c : Char)
  /-- An escaped line end, with a carriage return or without. -/
  | lineBreak (carriage : Bool)
  /-- An escaped quote or backslash, or an escape of one letter. -/
  | sign (c : Char)
  /-- A code in hexadecimal digits, behind the letter that tells how many there are. -/
  | code (letter : Char) (ds : List Char)
  /-- A code in octal digits. -/
  | octal (ds : List Char)
  /-- A backslash before a digit that is not octal. -/
  | digit (c : Char)
  /-- In a raw string, a backslash with the quote or backslash and the line end behind it. -/
  | pair (kept : Option Char) (eol : List Char)
  deriving DecidableEq

lemma mem_lineEnd {cs : List Char} {c : Char} (h : c ∈ lineEnd cs) : c = '\r' ∨ c = '\n' := by
  unfold lineEnd at h
  split at h <;> simp at h
  · exact h
  · exact .inl h
  · exact .inr h

namespace Item

/-- The letters and signs that are escaped by a backslash alone. -/
def signs : List Char := ['\'', '"', '\\', 'a', 'b', 'f', 'n', 'r', 't', 'v']

def signValue : Char → Char
  | 'a' => '\x07'
  | 'b' => '\x08'
  | 'f' => '\x0c'
  | 'n' => '\n'
  | 'r' => '\r'
  | 't' => '\t'
  | 'v' => '\x0b'
  | c => c

/-- How an item is written. -/
def written : Item → List Char
  | char c => [c]
  | brace c => [c, c]
  | lineBreak carriage => '\\' :: if carriage then ['\r', '\n'] else ['\n']
  | sign c => ['\\', c]
  | code letter ds => '\\' :: letter :: ds
  | octal ds => '\\' :: ds
  | digit c => ['\\', c]
  | pair kept eol => '\\' :: (kept.toList ++ eol)

/-- What an item stands for. -/
def value : Item → List Char
  | char c => [c]
  | brace c => [c]
  | lineBreak _ => []
  | sign c => [signValue c]
  | code _ ds => [Char.ofNat (ofDigits 16 ds)]
  | octal ds => [Char.ofNat (ofDigits 8 ds)]
  | digit c => ['\\', c]
  | pair kept eol => '\\' :: (kept.toList ++ eol)

/-- Whether an item can stand in a string before the rest of the text: a quote must not be closed
early, an octal code has as many of three digits as there are, and names and surrogates are left
out. -/
def Fits (q : Quote) (rest : List Char) : Item → Prop
  | char c => c ≠ '\x00' ∧ (q.format = true → ¬ IsBrace c) ∧ (c = '\n' → q.triple = true) ∧
      (c = q.mark → q.triple = true ∧ ¬ [q.mark, q.mark] <+: rest) ∧
      (c = '\\' → q.raw = true ∧ lineEnd rest = [] ∧ ∀ d ∈ rest.head?, d ≠ q.mark ∧ d ≠ '\\')
  | brace c => q.format = true ∧ IsBrace c
  | lineBreak _ => q.raw = false
  | sign c => q.raw = false ∧ c ∈ signs
  | code letter ds => q.raw = false ∧ (letter, ds.length) ∈ [('x', 2), ('u', 4), ('U', 8)] ∧
      (∀ d ∈ ds, isHexDigit d = true) ∧ (ofDigits 16 ds).isValidChar
  | octal ds => q.raw = false ∧ ds ≠ [] ∧ ds.length ≤ 3 ∧ (∀ d ∈ ds, IsOctal d) ∧
      (ds.length < 3 → ∀ d ∈ rest.head?, ¬ IsOctal d)
  | digit c => q.raw = false ∧ (c = '8' ∨ c = '9')
  | pair kept eol => q.raw = true ∧ (∀ c ∈ kept, c = q.mark ∨ c = '\\') ∧
      lineEnd (eol ++ rest) = eol ∧ (kept = none → eol ≠ []) ∧
      (kept ≠ none → eol ≠ [] → q.triple = true)

/-- Whether a run of plain characters stops at an item. -/
def stops : Item → Bool
  | char _ | pair _ _ => false
  | _ => true

/-- Whether an item passes unseen: in a raw string a backslash is none of the content itself. -/
def isSilent : Item → Bool
  | pair _ _ => true
  | char c => c == '\\'
  | _ => false

/-- Whether a new piece begins behind an item. -/
def breaks (q : Quote) : Item → Bool
  | brace _ => true
  | char c => c == q.mark
  | _ => false

variable {q : Quote} {i : Item} {rest : List Char}

lemma written_ne_nil (i : Item) : i.written ≠ [] := by
  cases i <;> exact List.cons_ne_nil _ _

/-- What passes unseen are backslashes, alone or with what they keep. -/
lemma eq_of_isSilent (h : i.isSilent = true) :
    i = char '\\' ∨ ∃ kept eol, i = pair kept eol := by
  cases i with
  | char c =>
    obtain rfl : c = '\\' := by simpa [isSilent] using h
    exact .inl rfl
  | pair kept eol => exact .inr ⟨kept, eol, rfl⟩
  | brace | lineBreak | sign | code | octal | digit => cases h

/-- A raw string has no escapes. -/
lemma Fits.eq_of_raw (hraw : q.raw = true) (h : i.Fits q rest) :
    (∃ c, i = char c) ∨ (∃ c, i = brace c) ∨ ∃ kept eol, i = pair kept eol := by
  have hnot {p : Prop} (hfalse : q.raw = false) : p := by
    rw [hraw] at hfalse
    cases hfalse
  cases i with
  | char c => exact .inl ⟨c, rfl⟩
  | brace c => exact .inr (.inl ⟨c, rfl⟩)
  | pair kept eol => exact .inr (.inr ⟨kept, eol, rfl⟩)
  | lineBreak => exact hnot h
  | sign | code | octal | digit => exact hnot h.1

end Item

/-- How items are written. -/
def writtenText (items : List Item) : List Char := items.flatMap Item.written

/-- The text that Python gives items. -/
def pythonText (items : List Item) : List Char := items.flatMap Item.value

/-- Items that can stand one behind the other, before what closes the string. -/
def Fit (q : Quote) (tail : List Char) : List Item → Prop
  | [] => True
  | i :: r => i.Fits q (writtenText r ++ tail) ∧ Fit q tail r

/-- What closes a string. -/
def Quote.marks (q : Quote) : List Char := if q.triple then [q.mark, q.mark, q.mark] else [q.mark]

/-- A quote of text strings. -/
structure Quote.IsTextual (q : Quote) : Prop where
  mark : q.mark = '\'' ∨ q.mark = '"'
  bytes : q.bytes = false

variable {q : Quote} {i : Item} {items a b r : List Item} {tail after rest w : List Char} {c : Char}
  {taken : Nat} {has : Bool}

@[simp] lemma writtenText_nil : writtenText [] = [] := rfl

@[simp] lemma writtenText_cons : writtenText (i :: r) = i.written ++ writtenText r := rfl

@[simp] lemma writtenText_append : writtenText (a ++ b) = writtenText a ++ writtenText b :=
  List.flatMap_append

@[simp] lemma writtenText_map_char (cs : List Char) : writtenText (cs.map .char) = cs := by
  induction cs with
  | nil => rfl
  | cons c cs ih => rw [List.map_cons, writtenText_cons, ih]; rfl

@[simp] lemma pythonText_cons : pythonText (i :: r) = i.value ++ pythonText r := rfl

@[simp] lemma pythonText_append : pythonText (a ++ b) = pythonText a ++ pythonText b :=
  List.flatMap_append

lemma writtenText_ne_nil (h : items ≠ []) : writtenText items ≠ [] := by
  obtain ⟨i, r, rfl⟩ := List.exists_cons_of_ne_nil h
  exact List.append_ne_nil_of_left_ne_nil i.written_ne_nil _

lemma Fit.of_append (h : Fit q tail (a ++ b)) : Fit q tail b := by
  induction a with
  | nil => exact h
  | cons i a ih => exact ih h.2

lemma Fit.exists_fits (h : Fit q tail items) (hi : i ∈ items) : ∃ rest, i.Fits q rest := by
  induction items with
  | nil => cases hi
  | cons j r ih =>
    rcases List.mem_cons.1 hi with rfl | hi
    · exact ⟨_, h.1⟩
    · exact ih h.2 hi

lemma Quote.IsTextual.ne (h : q.IsTextual) (hc : c ∉ ['\'', '"']) : c ≠ q.mark := by
  rintro rfl
  rcases h.mark with hm | hm <;> simp [hm] at hc

/-- A quote is no character that has a meaning of its own in strings. -/
lemma Quote.IsTextual.mark_ne (h : q.IsTextual) :
    q.mark ≠ '\x00' ∧ q.mark ≠ '\\' ∧ q.mark ≠ '\x7b' ∧ q.mark ≠ '\x7d' := by
  rcases h.mark with hm | hm <;> rw [hm] <;> decide

lemma Quote.IsTextual.not_isBrace (h : q.IsTextual) : ¬ IsBrace q.mark :=
  not_or.2 h.mark_ne.2.2

lemma Quote.exists_marks (q : Quote) : ∃ r, q.marks = q.mark :: r := by
  unfold Quote.marks
  split_ifs <;> exact ⟨_, rfl⟩

/-! ## Runs of plain characters -/

namespace Quote

open Item

lemma plainRun_skip (w rest : List Char) (taken : Nat) (has : Bool) :
    plainRun q w.length taken has (w ++ rest) = plainRun q 0 (taken + w.length) has rest := by
  induction w generalizing taken with
  | nil => rfl
  | cons c w ih =>
    rw [List.length_cons, List.cons_append, plainRun, ih, Nat.add_assoc, Nat.add_comm 1]

/-- The run stops, and what it has passed so far is its end. -/
def runStop (taken : Nat) (has : Bool) : RunEnd := if has then .plain taken else .special

lemma plainRun_brace (hformat : q.format = true) (hc : IsBrace c) (taken : Nat) (has : Bool)
    (rest : List Char) : plainRun q 0 taken has (c :: rest) = runStop taken has := by
  rcases hc with rfl | rfl <;> simp [plainRun, hformat, runStop]

lemma plainRun_backslash (hq : q.IsTextual) (hraw : q.raw = false) (taken : Nat) (has : Bool)
    (rest : List Char) : plainRun q 0 taken has ('\\' :: rest) = runStop taken has := by
  simp [plainRun, hraw, hq.bytes, runStop]

lemma plainRun_raw (hraw : q.raw = true) (taken : Nat) (has : Bool) (rest : List Char) :
    plainRun q 0 taken has ('\\' :: rest) =
      plainRun q (rawStep q.mark rest) (taken + 1) has rest := by
  simp [plainRun, hraw]

lemma plainRun_char (hnul : c ≠ '\x00') (hbrace : q.format = true → ¬ IsBrace c) (hback : c ≠ '\\')
    (hmark : c ≠ q.mark) (hline : c = '\n' → q.triple = true) (taken : Nat) (has : Bool)
    (rest : List Char) :
    plainRun q 0 taken has (c :: rest) = plainRun q 0 (taken + 1) true rest := by
  have hformat : (q.format && (c = '\x7b' || c = '\x7d')) = false := by
    by_contra h
    simp only [Bool.not_eq_false, Bool.and_eq_true, Bool.or_eq_true, decide_eq_true_eq] at h
    exact hbrace h.1 h.2
  have hbreak : (c = '\n' && has && !q.triple) = false := by
    by_contra h
    simp only [Bool.not_eq_false, Bool.and_eq_true, decide_eq_true_eq, Bool.not_eq_true'] at h
    rw [hline h.1.1] at h
    exact absurd h.2 (by decide)
  rw [plainRun.eq_def]
  dsimp only
  rw [if_neg hnul, hformat, if_neg Bool.false_ne_true, if_neg hback, if_neg hmark, hbreak]
  rfl

lemma plainRun_marks (hq : q.IsTextual) (taken : Nat) (has : Bool) (after : List Char) :
    plainRun q 0 taken has (q.marks ++ after) =
      if has then .plain taken else .closing (taken + q.marks.length) := by
  obtain ⟨hnul, hback, hopen, hclose⟩ := hq.mark_ne
  unfold Quote.marks
  split_ifs with htriple hhas hhas <;>
    simp [plainRun, htriple, hhas, hnul, hback, hopen, hclose]

/-- A quote inside a string of three quotes ends the run behind it, or behind the next one. -/
lemma plainRun_mark (hq : q.IsTextual) (htriple : q.triple = true)
    (hrest : ¬ [q.mark, q.mark] <+: rest) (taken : Nat) (has : Bool) :
    plainRun q 0 taken has (q.mark :: rest) =
      .plain (taken + if rest.head? = some q.mark then 2 else 1) := by
  obtain ⟨hnul, hback, hopen, hclose⟩ := hq.mark_ne
  match rest with
  | [] => simp [plainRun, htriple, hnul, hback, hopen, hclose]
  | [d] =>
    by_cases hd : d = q.mark <;>
      simp [plainRun, htriple, hnul, hback, hopen, hclose, hd]
  | d :: e :: r =>
    by_cases hd : d = q.mark
    · have he : e ≠ q.mark := by
        rintro rfl
        exact hrest ⟨r, by rw [hd]; rfl⟩
      simp [plainRun, htriple, hnul, hback, hopen, hclose, hd, he]
    · simp [plainRun, htriple, hnul, hback, hopen, hclose, hd]

lemma length_lineEnd (cs : List Char) : (lineEnd cs).length =
    match cs with
    | '\r' :: '\n' :: _ => 2
    | '\r' :: _ => 1
    | '\n' :: _ => 1
    | _ => 0 := by
  unfold lineEnd
  split <;> rfl

lemma rawStep_cons (mark c : Char) (r : List Char) : rawStep mark (c :: r) =
    if c = mark ∨ c = '\\' then 1 + (lineEnd r).length else (lineEnd (c :: r)).length := by
  by_cases hc : c = mark ∨ c = '\\'
  · have hcond : (decide (c = mark) || decide (c = '\\')) = true := by simpa using hc
    rw [if_pos hc, length_lineEnd]
    exact if_pos hcond
  · have hcond : ¬ (decide (c = mark) || decide (c = '\\')) = true := by simpa using hc
    rw [if_neg hc, length_lineEnd]
    exact if_neg hcond

/-- How the run at the front of items ends. -/
inductive Run (q : Quote) (taken : Nat) (has : Bool) (items : List Item) : RunEnd → Prop
  /-- Nothing was seen up to the closing quote. -/
  | closing (hhas : has = false) (hsilent : ∀ i ∈ items, i.isSilent = true) :
    Run q taken has items (.closing (taken + (writtenText items).length + q.marks.length))
  /-- Nothing was seen up to an item at which runs stop. -/
  | special {a b : List Item} {i : Item} (hitems : items = a ++ i :: b) (hhas : has = false)
    (hsilent : ∀ i ∈ a, i.isSilent = true) (hstop : i.stops = true) : Run q taken has items .special
  /-- The run reaches the end, or an item at which runs stop. -/
  | content {a b : List Item} (hitems : items = a ++ b)
    (hplain : ∀ i ∈ a, i.stops = false ∧ i.breaks q = false) (hend : ∀ i ∈ b.head?, i.stops = true)
    (hhas : has = true ∨ ∃ i ∈ a, i.isSilent = false) :
    Run q taken has items (.plain (taken + (writtenText a).length))
  /-- The run ends behind a quote. -/
  | mark {a b : List Item} (hitems : items = a ++ .char q.mark :: b)
    (hplain : ∀ i ∈ a, i.stops = false) :
    Run q taken has items (.plain (taken + (writtenText a).length + 1))

lemma Run.cons {e : RunEnd} {seen : Bool} (hstop : i.stops = false) (hbreak : i.breaks q = false)
    (hseen : seen = (has || !i.isSilent)) (h : Run q (taken + i.written.length) seen r e) :
    Run q taken has (i :: r) e := by
  subst hseen
  have hlength (a : List Item) : taken + i.written.length + (writtenText a).length =
      taken + (writtenText (i :: a)).length := by
    rw [writtenText_cons, List.length_append, Nat.add_assoc]
  cases h with
  | closing hhas hsilent =>
    rw [hlength]
    simp only [Bool.or_eq_false_iff, Bool.not_eq_false'] at hhas
    exact .closing hhas.1 (List.forall_mem_cons.2 ⟨hhas.2, hsilent⟩)
  | @special a b j hitems hhas hsilent hj =>
    simp only [Bool.or_eq_false_iff, Bool.not_eq_false'] at hhas
    exact .special (a := i :: a) (by rw [hitems]; rfl) hhas.1
      (List.forall_mem_cons.2 ⟨hhas.2, hsilent⟩) hj
  | @content a b hitems hplain hend hhas =>
    rw [hlength]
    refine .content (a := i :: a) (by rw [hitems]; rfl)
      (List.forall_mem_cons.2 ⟨⟨hstop, hbreak⟩, hplain⟩) hend ?_
    rcases hhas with hhas | ⟨j, hj, hsilent⟩
    · rw [Bool.or_eq_true, Bool.not_eq_true'] at hhas
      exact hhas.imp id fun hi => ⟨i, List.mem_cons_self, hi⟩
    · exact .inr ⟨j, List.mem_cons_of_mem i hj, hsilent⟩
  | @mark a b hitems hplain =>
    rw [hlength]
    exact .mark (a := i :: a) (by rw [hitems]; rfl) (List.forall_mem_cons.2 ⟨hstop, hplain⟩)

/-- A run over `a` that leaves `b` ends behind a quote, or it has seen something and stands before
an item at which runs stop. -/
def Parted (q : Quote) (a b : List Item) : Prop :=
  (∃ a', a = a' ++ [.char q.mark]) ∨
    (∀ i ∈ a, i.breaks q = false) ∧ (∃ i ∈ a, i.isSilent = false) ∧ ∀ i ∈ b.head?, i.stops = true

/-- A run that does not stop at the first item sees nothing up to the closing quote or up to an item
at which runs stop, or it passes some items whole. -/
lemma Run.passed {e : RunEnd} (h : Run q 0 false (i :: r) e) (hi : i.stops = false) :
    (e = .closing ((writtenText (i :: r)).length + q.marks.length) ∧
        ∀ j ∈ i :: r, j.isSilent = true) ∨
      (∃ a j b, r = a ++ j :: b ∧ e = .special ∧ (∀ x ∈ i :: a, x.isSilent = true) ∧
        j.stops = true) ∨
      ∃ a b, i :: r = a ++ b ∧ a ≠ [] ∧ (∀ j ∈ a, j.stops = false) ∧
        e = .plain (writtenText a).length ∧ Parted q a b := by
  cases h with
  | closing hhas hsilent => exact .inl ⟨by rw [Nat.zero_add], hsilent⟩
  | @special a b j hitems hhas hsilent hj =>
    cases a with
    | nil =>
      rw [(List.cons.inj hitems).1, hj] at hi
      cases hi
    | cons x a =>
      obtain ⟨rfl, rfl⟩ := List.cons.inj hitems
      exact .inr (.inl ⟨a, j, b, rfl, rfl, hsilent, hj⟩)
  | @content a b hitems hplain hend hhas =>
    have hseen := hhas.resolve_left Bool.false_ne_true
    have hne : a ≠ [] := by
      rintro rfl
      simp at hseen
    exact .inr (.inr ⟨a, b, hitems, hne, fun j hj => (hplain j hj).1, by rw [Nat.zero_add],
      .inr ⟨fun j hj => (hplain j hj).2, hseen, hend⟩⟩)
  | @mark a b hitems hplain =>
    refine .inr (.inr ⟨a ++ [.char q.mark], b, ?_, by simp, ?_, ?_, .inl ⟨a, rfl⟩⟩)
    · rw [hitems, List.append_assoc, List.singleton_append]
    · intro j hj
      rcases List.mem_append.1 hj with hj | hj
      · exact hplain j hj
      · rw [List.mem_singleton.1 hj]
        rfl
    · rw [writtenText_append, List.length_append, Nat.zero_add]
      rfl

lemma plainRun_stops (hq : q.IsTextual) (hfits : i.Fits q rest) (hstop : i.stops = true)
    (taken : Nat) (has : Bool) (w : List Char) :
    plainRun q 0 taken has (i.written ++ w) = runStop taken has := by
  cases i with
  | char c => cases hstop
  | pair kept eol => cases hstop
  | brace c => exact plainRun_brace hfits.1 hfits.2 taken has _
  | lineBreak carriage => exact plainRun_backslash hq hfits taken has _
  | sign c => exact plainRun_backslash hq hfits.1 taken has _
  | code letter ds => exact plainRun_backslash hq hfits.1 taken has _
  | octal ds => exact plainRun_backslash hq hfits.1 taken has _
  | digit c => exact plainRun_backslash hq hfits.1 taken has _

/-- A backslash of a raw string is stepped over, with what it keeps from closing the string. -/
lemma plainRun_pair {kept : Option Char} {eol : List Char} (hq : q.IsTextual)
    (hfits : (Item.pair kept eol).Fits q rest) (taken : Nat) (has : Bool) :
    plainRun q 0 taken has ((Item.pair kept eol).written ++ rest) =
      plainRun q 0 (taken + (Item.pair kept eol).written.length) has rest := by
  obtain ⟨hraw, hkept, heol, hnone, -⟩ := hfits
  have hstep : rawStep q.mark (kept.toList ++ eol ++ rest) = (kept.toList ++ eol).length := by
    cases kept with
    | some c =>
      have hstep := rawStep_cons q.mark c (eol ++ rest)
      rw [if_pos (hkept c rfl), heol] at hstep
      simpa [Nat.add_comm] using hstep
    | none =>
      -- a line end is neither a quote nor a backslash
      obtain ⟨c, r, rfl⟩ := List.exists_cons_of_ne_nil (hnone rfl)
      have hc : c = '\r' ∨ c = '\n' := mem_lineEnd (heol ▸ List.mem_cons_self)
      have hmark : ¬ (c = q.mark ∨ c = '\\') := by
        rcases hc with rfl | rfl
        · simpa using hq.ne (c := '\r') (by decide)
        · simpa using hq.ne (c := '\n') (by decide)
      have hstep := rawStep_cons q.mark c (r ++ rest)
      rw [if_neg hmark, ← List.cons_append, heol] at hstep
      exact hstep
  have hraw := plainRun_raw hraw taken has (kept.toList ++ eol ++ rest)
  rw [hstep, plainRun_skip] at hraw
  rw [Item.written, List.cons_append, hraw, List.length_cons, Nat.add_assoc, Nat.add_comm 1]

/-- A backslash of a raw string that keeps nothing. -/
lemma plainRun_loneBackslash (hfits : (Item.char '\\').Fits q rest) (hrest : rest ≠ [])
    (taken : Nat) (has : Bool) :
    plainRun q 0 taken has ('\\' :: rest) = plainRun q 0 (taken + 1) has rest := by
  obtain ⟨hraw, hline, hhead⟩ := hfits.2.2.2.2 rfl
  obtain ⟨d, r, rfl⟩ := List.exists_cons_of_ne_nil hrest
  have hd : ¬ (d = q.mark ∨ d = '\\') := not_or.2 (hhead d rfl)
  rw [plainRun_raw hraw, rawStep_cons, if_neg hd, hline, List.length_nil]

/-- An item that begins with a quote is one. -/
lemma eq_char_of_written (hq : q.IsTextual) (hfits : i.Fits q rest)
    (hhead : i.written.head? = some q.mark) : i = .char q.mark := by
  have hback := hq.ne (c := '\\') (by decide)
  cases i with
  | char c => exact congrArg Item.char (Option.some.inj hhead)
  | brace c => exact absurd (Option.some.inj hhead ▸ hfits.2) hq.not_isBrace
  | lineBreak | sign | code | octal | digit | pair => exact absurd (Option.some.inj hhead) hback

lemma run_mark (hq : q.IsTextual) (h : Fit q (q.marks ++ after) (.char q.mark :: r)) (taken : Nat)
    (has : Bool) :
    Run q taken has (.char q.mark :: r)
      (plainRun q 0 taken has (q.mark :: (writtenText r ++ (q.marks ++ after)))) := by
  obtain ⟨hfits, hr⟩ := h
  obtain ⟨htriple, hprefix⟩ := hfits.2.2.2.1 rfl
  rw [plainRun_mark hq htriple hprefix]
  by_cases hhead : (writtenText r ++ (q.marks ++ after)).head? = some q.mark
  · rw [if_pos hhead]
    cases r with
    | nil => exact absurd ⟨q.mark :: after, by simp [Quote.marks, htriple]⟩ hprefix
    | cons j r =>
      have hj : j.written.head? = some q.mark := by
        cases j <;> exact hhead
      obtain rfl := eq_char_of_written hq hr.1 hj
      exact .mark (a := [.char q.mark]) rfl (by simp [Item.stops])
  · rw [if_neg hhead]
    exact .mark (a := []) rfl (by simp)

/-- What the run at the front of items that fit finds. -/
lemma run_plainRun (hq : q.IsTextual) (h : Fit q (q.marks ++ after) items) (taken : Nat)
    (has : Bool) :
    Run q taken has items (plainRun q 0 taken has (writtenText items ++ (q.marks ++ after))) := by
  induction items generalizing taken has with
  | nil =>
    rw [writtenText_nil, List.nil_append, plainRun_marks hq]
    cases has with
    | true => exact .content (a := []) rfl (by simp) (by simp) (.inl rfl)
    | false => exact .closing rfl (by simp)
  | cons i r ih =>
    obtain ⟨hfits, hr⟩ := h
    rw [writtenText_cons, List.append_assoc]
    by_cases hstop : i.stops = true
    · rw [plainRun_stops hq hfits hstop]
      cases has with
      | true => exact .content (a := []) rfl (by simp) (by simpa using hstop) (.inl rfl)
      | false => exact .special (a := []) rfl rfl (by simp) hstop
    · cases i with
      | pair kept eol =>
        rw [plainRun_pair hq hfits]
        exact (ih hr _ _).cons rfl rfl (by simp [Item.isSilent])
      | char c =>
        by_cases hmark : c = q.mark
        · subst hmark
          exact run_mark hq ⟨hfits, hr⟩ taken has
        · have hbreak : (Item.char c).breaks q = false := by simpa [Item.breaks] using hmark
          by_cases hback : c = '\\'
          · subst hback
            obtain ⟨m, hm⟩ := q.exists_marks
            rw [Item.written, List.singleton_append,
              plainRun_loneBackslash hfits (by simp [hm])]
            exact (ih hr _ _).cons rfl hbreak (by simp [Item.isSilent])
          · rw [Item.written, List.singleton_append,
              plainRun_char hfits.1 hfits.2.1 hback hmark hfits.2.2.1]
            exact (ih hr _ _).cons rfl hbreak (by simp [Item.isSilent, hback])
      | brace | lineBreak | sign | code | octal | digit => exact absurd rfl hstop

/-! ## Pieces -/

/-- The kind of node that a piece of the content becomes, and its length. -/
def Piece.content? : Piece → Option (Kind × Nat)
  | .plain n => some (.token, n)
  | .escape n => some (.escapeSequence, n)
  | .doubledBrace => some (.escapeInterpolation, 2)
  | .interpolation | .closing _ => none

lemma nextPiece_brace (hformat : q.format = true) (hc : IsBrace c) (rest : List Char) :
    nextPiece q (c :: c :: rest) = some .doubledBrace := by
  rcases hc with rfl | rfl <;> simp [nextPiece, hformat]

/-- The piece that a run of plain characters makes. -/
def runPiece (cs : List Char) : RunEnd → Option Piece
  | .plain n => some (.plain n)
  | .closing n => some (.closing n)
  | .special => match escapeLength cs with
    | some n => some (.escape n)
    | none => some (.plain 1)
  | .broken => none

lemma runPiece_escape {cs : List Char} {n : Nat} (h : escapeLength cs = some n) :
    runPiece cs .special = some (.escape n) := by
  rw [runPiece, h]

lemma runPiece_backslash {cs : List Char} (h : escapeLength cs = none) :
    runPiece cs .special = some (.plain 1) := by
  rw [runPiece, h]

lemma nextPiece_run (hc : q.format = true → ¬ IsBrace c) (rest : List Char) :
    nextPiece q (c :: rest) = runPiece (c :: rest) (plainRun q 0 0 false (c :: rest)) := by
  have hopen : (q.format && c = '\x7b') = false := by
    by_contra h
    simp only [Bool.not_eq_false, Bool.and_eq_true, decide_eq_true_eq] at h
    exact hc h.1 (.inl h.2)
  have hclose : (q.format && c = '\x7d') = false := by
    by_contra h
    simp only [Bool.not_eq_false, Bool.and_eq_true, decide_eq_true_eq] at h
    exact hc h.1 (.inr h.2)
  cases rest with
  | nil =>
    simp only [nextPiece, hopen, hclose, Bool.false_eq_true, if_false]
    rfl
  | cons d r =>
    simp only [nextPiece, Bool.and_or_distrib_left, hopen, hclose, Bool.or_self, Bool.false_eq_true,
      if_false]
    rfl

/-- An item at which runs do not stop begins a run. -/
lemma nextPiece_of_not_stops (hfits : i.Fits q rest) (hstop : i.stops = false) (w : List Char) :
    nextPiece q (i.written ++ w) =
      runPiece (i.written ++ w) (plainRun q 0 0 false (i.written ++ w)) := by
  cases i with
  | char c => exact nextPiece_run hfits.2.1 w
  | pair kept eol => exact nextPiece_run (fun _ => by decide) _
  | brace | lineBreak | sign | code | octal | digit => cases hstop

lemma nextPiece_marks (hq : q.IsTextual) (after : List Char) :
    nextPiece q (q.marks ++ after) = some (.closing q.marks.length) := by
  have hrun := plainRun_marks hq 0 false after
  obtain ⟨r, hr⟩ := q.exists_marks
  have hpiece := nextPiece_run (fun _ : q.format = true => hq.not_isBrace) (r ++ after)
  rw [← List.cons_append, ← hr, hrun] at hpiece
  simpa [runPiece] using hpiece

lemma nextPiece_escape (hq : q.IsTextual) (hraw : q.raw = false) {n : Nat}
    (h : escapeLength ('\\' :: rest) = some n) :
    nextPiece q ('\\' :: rest) = some (.escape n) := by
  rw [nextPiece_run (fun _ => by decide), plainRun_backslash hq hraw]
  simp [runPiece, runStop, h]

/-! ## Escapes -/

lemma escapeLength_sign (hc : c ∈ Item.signs) (rest : List Char) :
    escapeLength ('\\' :: c :: rest) = some 2 := by
  simp only [Item.signs, List.mem_cons, List.not_mem_nil, or_false] at hc
  rcases hc with rfl | rfl | rfl | rfl | rfl | rfl | rfl | rfl | rfl | rfl <;> rfl

lemma escapeLength_lineBreak (carriage : Bool) (rest : List Char) :
    escapeLength ((Item.lineBreak carriage).written ++ rest) =
      some (Item.lineBreak carriage).written.length := by
  cases carriage <;> rfl

lemma escapeLength_code {letter : Char} {ds : List Char}
    (hletter : (letter, ds.length) ∈ [('x', 2), ('u', 4), ('U', 8)])
    (hds : ∀ d ∈ ds, isHexDigit d = true) (rest : List Char) :
    escapeLength ('\\' :: letter :: (ds ++ rest)) = some (2 + ds.length) := by
  have htake {n : Nat} (hn : ds.length = n) : (ds ++ rest).take n = ds := by
    rw [← hn, List.take_left]
  have hall : ds.all isHexDigit = true := List.all_eq_true.2 hds
  simp only [List.mem_cons, Prod.mk.injEq, List.not_mem_nil, or_false] at hletter
  rcases hletter with ⟨rfl, hn⟩ | ⟨rfl, hn⟩ | ⟨rfl, hn⟩ <;>
    simp [escapeLength, htake hn, hall, hn]

lemma escapeLength_digit (hc : c.isDigit = true) (rest : List Char) :
    escapeLength ('\\' :: c :: rest) =
      some (2 + ((rest.take 2).takeWhile Char.isDigit).length) := by
  have hne (d : Char) (hd : d.isDigit = false) : c ≠ d := by
    rintro rfl
    rw [hc] at hd
    cases hd
  have hr := hne '\r' (by decide)
  have hu := hne 'u' (by decide)
  have hU := hne 'U' (by decide)
  have hx := hne 'x' (by decide)
  unfold escapeLength
  dsimp only
  split
  next h => exact absurd (List.cons.inj (List.cons.inj h).2).1 hr
  next h =>
    obtain ⟨rfl, rfl⟩ := List.cons.inj (List.cons.inj h).2
    rw [if_neg hu, if_neg hU, if_neg hx, if_pos hc]
  next h => exact absurd rfl (h c rest)

end Quote

end AddonAtlas.Source
