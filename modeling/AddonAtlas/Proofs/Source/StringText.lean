import AddonAtlas.Proofs.Source.StringPieces
import AddonAtlas.Source.Grammar.Strings

/-!
String literals, from how they are written to their values.

Reading a string cuts its inside into pieces and keeps them below one node of content; the value is
put together from what stands there, or from the text of that node if the string is raw.
-/

namespace AddonAtlas

namespace Text.Position

variable {p : Position} {n : Nat}

lemma advance_of_rest_nil (h : p.rest = []) (n : Nat) : p.advance n = p := by
  cases n with
  | zero => rfl
  | succ n => simp [advance, h]

lemma advance_add (p : Position) (m n : Nat) : p.advance (m + n) = (p.advance m).advance n := by
  induction m generalizing p with
  | zero => rw [Nat.zero_add]; rfl
  | succ m ih =>
    cases h : p.rest with
    | nil => rw [advance_of_rest_nil h, advance_of_rest_nil h, advance_of_rest_nil h]
    | cons c r =>
      rw [Nat.succ_add_eq_add_succ, Nat.add_succ]
      simp only [advance, h]
      exact ih _

lemma advance_append (p : Position) (a b : List Char) :
    p.advance (a ++ b).length = (p.advance a.length).advance b.length := by
  rw [List.length_append, advance_add]

lemma rest_advance (p : Position) (n : Nat) : (p.advance n).rest = p.rest.drop n := by
  induction n generalizing p with
  | zero => rfl
  | succ n ih =>
    cases h : p.rest with
    | nil => rw [advance_of_rest_nil h, h, List.drop_nil]
    | cons c r => simp only [advance, h, ih, List.drop_succ_cons]

lemma offset_advance (h : n ≤ p.rest.length) : (p.advance n).offset = p.offset + n := by
  induction n generalizing p with
  | zero => rfl
  | succ n ih =>
    cases hrest : p.rest with
    | nil => simp [hrest] at h
    | cons c r =>
      rw [hrest, List.length_cons] at h
      simp only [advance, hrest]
      rw [ih (Nat.le_of_succ_le_succ h)]
      exact Nat.add_right_comm _ _ _

/-- The text up to the place behind some characters. -/
lemma textTo_advance {w r : List Char} (h : p.rest = w ++ r) :
    p.textTo (p.advance w.length) = String.ofList w := by
  have hle : w.length ≤ p.rest.length := by
    rw [h, List.length_append]
    exact Nat.le_add_right _ _
  rw [textTo, offset_advance hle, Nat.add_sub_cancel_left, h, List.take_left]

end Text.Position

namespace Source

open AddonAtlas.Text Reading

variable {q : Quote} {after cs e w r : List Char} {ps : List (Kind × List Char)} {c d : Cursor}
  {self : Goal → Reading Tree} {k : Kind} {n : Nat}

/-- Pieces and what closes the string are all of its inside, and no piece is empty. -/
lemma Cuts.eq_append (h : Cuts q after cs ps e) :
    cs = pieceChars ps ++ (e ++ after) ∧ ps.length ≤ (pieceChars ps).length := by
  induction h with
  | closing => exact ⟨rfl, Nat.le_refl 0⟩
  | @piece k w cs e ps p hw hp hk h ih =>
    obtain ⟨rfl, hle⟩ := ih
    have hpos := List.length_pos_iff.2 hw
    have hchars : pieceChars ((k, w) :: ps) = w ++ pieceChars ps := rfl
    rw [hchars, List.length_append, List.length_cons, List.append_assoc]
    exact ⟨rfl, by omega⟩

namespace Cursor

/-- The cursor some characters on. -/
def pass (c : Cursor) (n : Nat) : Cursor :=
  { c with position := c.position.advance n, ahead := none }

lemma pass_append (c : Cursor) (a b : List Char) :
    c.pass (a ++ b).length = (c.pass a.length).pass b.length := by
  simp only [pass, Position.advance_append]

lemma rest_pass (h : c.position.rest = w ++ r) : (c.pass w.length).position.rest = r := by
  rw [pass, Position.rest_advance, h, List.drop_left]

end Cursor

/-! ## Reading the inside of a string -/

/-- The node over the next characters. -/
def charsTree (k : Kind) (n : Nat) (c : Cursor) : Tree :=
  .node ⟨k, none, c.position.line, (c.pass n).position.line,
    c.position.textTo (c.pass n).position⟩ []

/-- The nodes over pieces. -/
def pieceTrees : List (Kind × List Char) → Cursor → List Tree
  | [], _ => []
  | (k, w) :: ps, c => charsTree k w.length c :: pieceTrees ps (c.pass w.length)

/-- The node over the content of a string, from a place up to where the cursor stands. -/
def contentTree (start : Position) (pieces : List Tree) (c : Cursor) : Tree :=
  .node ⟨.stringContent, none, start.line, c.position.line, start.textTo c.position⟩ pieces

lemma text_charsTree (h : c.position.rest = w ++ r) (k : Kind) :
    (charsTree k w.length c).text = String.ofList w :=
  Position.textTo_advance h

lemma iterate_more {α : Type} {step : α → Reading (α × Bool)} {rounds : Nat} {a b : α}
    (h : step a c = some ((b, true), d)) :
    iterate step (rounds + 1) a c = iterate step rounds b d := by
  simp only [iterate, bind, StateT.bind, h]
  rfl

lemma iterate_done {α : Type} {step : α → Reading (α × Bool)} {rounds : Nat} {a b : α}
    (h : step a c = some ((b, false), d)) : iterate step (rounds + 1) a c = some (b, d) := by
  simp only [iterate, bind, StateT.bind, h]
  rfl

namespace Grammar

variable {s : StringState}

/-- What a piece does to a string being read. -/
def pieceStep (self : Goal → Reading Tree) (s : StringState) (start : Position) :
    Option Quote.Piece → Reading (StringState × Bool)
  | none => failure
  | some (.plain n) => return (s.push start (← charsNode .token n), true)
  | some (.escape n) => return (s.push start (← charsNode .escapeSequence n), true)
  | some .doubledBrace => return (s.push start (← charsNode .escapeInterpolation 2), true)
  | some .interpolation => do
    let done ← s.flush
    return ({ done := done ++ [← self (.interpolation .interpolation)] }, true)
  | some (.closing n) => do
    let done ← s.flush
    return ({ done := done ++ [← charsNode .stringEnd n] }, false)

/-- One round of reading the inside of a string. -/
def insideStep (self : Goal → Reading Tree) (q : Quote) (s : StringState) :
    Reading (StringState × Bool) := do
  let start := (← get).position
  pieceStep self s start (q.nextPiece start.rest)

lemma stringInside_eq (self : Goal → Reading Tree) (q : Quote) (children : List Tree)
    (c : Cursor) : stringInside self q children c =
      (iterate (insideStep self q) (c.size + 2) { done := children } c).map fun r =>
        (r.1.done, r.2) := by
  have hloop : stringInside self q children c =
      (iterate (insideStep self q) (c.size + 2) { done := children } c).bind fun r =>
        some (r.1.done, r.2) := rfl
  rw [hloop]
  cases iterate (insideStep self q) (c.size + 2) { done := children } c <;> rfl

namespace StringState

/-- What pieces make of a string being read. -/
def gather : StringState → List (Kind × List Char) → Cursor → StringState
  | s, [], _ => s
  | s, (k, w) :: ps, c => gather (s.push c.position (charsTree k w.length c)) ps (c.pass w.length)

/-- The children of a string, its run of content closed. -/
def closed (s : StringState) (c : Cursor) : List Tree :=
  s.done ++ (s.content.map fun r => contentTree r.1 r.2 c).toList

lemma gather_content (start : Position) (done pieces : List Tree) (ps : List (Kind × List Char))
    (c : Cursor) : gather ⟨done, some (start, pieces)⟩ ps c =
      ⟨done, some (start, pieces ++ pieceTrees ps c)⟩ := by
  induction ps generalizing pieces c with
  | nil => rw [pieceTrees, List.append_nil, gather]
  | cons p ps ih =>
    rw [gather, push, ih, List.append_assoc]
    rfl

/-- All pieces of a string are kept below one node. -/
lemma closed_gather (children : List Tree) (hps : ps ≠ []) (c d : Cursor) :
    (gather { done := children } ps c).closed d =
      children ++ [contentTree c.position (pieceTrees ps c) d] := by
  cases ps with
  | nil => exact absurd rfl hps
  | cons p ps =>
    rw [gather, push, gather_content]
    rfl

end StringState

lemma insideStep_content {p : Quote.Piece} (hp : q.nextPiece c.position.rest = some p)
    (hk : p.content? = some (k, n)) :
    insideStep self q s c = some ((s.push c.position (charsTree k n c), true), c.pass n) := by
  have hstep : insideStep self q s c = pieceStep self s c.position (some p) c := by
    rw [← hp]
    rfl
  rw [hstep]
  cases p with
  | plain m | escape m | doubledBrace =>
    obtain ⟨rfl, rfl⟩ := Prod.mk.inj (Option.some.inj hk)
    rfl
  | interpolation | closing m => cases hk

lemma insideStep_closing (hp : q.nextPiece c.position.rest = some (.closing n)) :
    insideStep self q s c =
      some (({ done := s.closed c ++ [charsTree .stringEnd n c] }, false), c.pass n) := by
  have hstep : insideStep self q s c = pieceStep self s c.position (some (.closing n)) c := by
    rw [← hp]
    rfl
  rw [hstep, StringState.closed]
  obtain ⟨done, content⟩ := s
  cases content with
  | none =>
    rw [Option.map_none, Option.toList_none, List.append_nil]
    rfl
  | some r => rfl

/-- The rounds that read the inside of a string gather its pieces, up to its end. -/
lemma iterate_inside (h : Cuts q after cs ps e) (hrest : c.position.rest = cs) {rounds : Nat}
    (hrounds : ps.length < rounds) :
    iterate (insideStep self q) rounds s c =
      some ({ done := (s.gather ps c).closed (c.pass (pieceChars ps).length) ++
        [charsTree .stringEnd e.length (c.pass (pieceChars ps).length)] },
        c.pass (pieceChars ps ++ e).length) := by
  induction h generalizing c s rounds with
  | closing hend =>
    obtain ⟨rounds, rfl⟩ := Nat.exists_eq_succ_of_ne_zero (Nat.ne_zero_of_lt hrounds)
    rw [← hrest] at hend
    exact iterate_done (insideStep_closing hend)
  | @piece k w cs e ps p hw hp hk h ih =>
    obtain ⟨rounds, rfl⟩ := Nat.exists_eq_succ_of_ne_zero (Nat.ne_zero_of_lt hrounds)
    have hchars : pieceChars ((k, w) :: ps) = w ++ pieceChars ps := rfl
    have hlater := ih (s := s.push c.position (charsTree k w.length c)) (Cursor.rest_pass hrest)
      (Nat.lt_of_succ_lt_succ hrounds)
    rw [← hrest] at hp
    rw [iterate_more (insideStep_content hp hk), hlater, hchars, List.append_assoc,
      Cursor.pass_append c w, Cursor.pass_append c w]
    rfl

/-- The inside of a string is read up to its end. -/
lemma stringInside_of_cuts (self : Goal → Reading Tree) (h : Cuts q after c.position.rest ps e)
    (hsize : c.position.rest.length ≤ c.size) (children : List Tree) :
    stringInside self q children c =
      some ((StringState.gather { done := children } ps c).closed (c.pass (pieceChars ps).length) ++
        [charsTree .stringEnd e.length (c.pass (pieceChars ps).length)],
        c.pass (pieceChars ps ++ e).length) := by
  obtain ⟨hcs, hlength⟩ := h.eq_append
  have hrounds : ps.length < c.size + 2 := by
    rw [hcs, List.length_append] at hsize
    omega
  rw [stringInside_eq, iterate_inside h rfl hrounds, Option.map_some]

end Grammar

/-! ## The text of a string -/

namespace Literal

lemma toList_join (l : List String) : (String.join l).toList = l.flatMap String.toList := by
  induction l with
  | nil => rfl
  | cons a l ih => simp [String.join_cons, ih]

lemma toList_piece (h : c.position.rest = w ++ r) (k : Kind) :
    (piece (charsTree k w.length c)).toList = pieceText (k, w) := by
  have hkind : (charsTree k w.length c).kind = k := rfl
  rw [piece, hkind, pieceText, text_charsTree h]
  cases k <;> simp only [String.toList_ofList]

lemma flatMap_piece (h : c.position.rest = pieceChars ps ++ r) :
    ((pieceTrees ps c).map piece).flatMap String.toList = ps.flatMap pieceText := by
  induction ps generalizing c with
  | nil => rfl
  | cons p ps ih =>
    obtain ⟨k, w⟩ := p
    have hrest : c.position.rest = w ++ (pieceChars ps ++ r) := by
      rw [h, ← List.append_assoc]
      rfl
    rw [pieceTrees, List.map_cons, List.flatMap_cons, toList_piece hrest, List.flatMap_cons,
      ih (Cursor.rest_pass hrest)]

/-- The text of a string that was read. -/
lemma stringParts_closed (start : Tree) (hstart : start.kind = .stringStart)
    (h : c.position.rest = pieceChars ps ++ r) (raw : Bool) : ∃ s,
    stringParts raw ((Grammar.StringState.gather { done := [start] } ps c).closed
      (c.pass (pieceChars ps).length) ++
        [charsTree .stringEnd n (c.pass (pieceChars ps).length)]) = .ok s ∧
      s.toList = if isRaw start.text then pieceChars ps else ps.flatMap pieceText := by
  have hopening (ts : List Tree) : stringParts raw (start :: ts) =
      stringParts (isRaw start.text) ts := by
    rw [stringParts, hstart]
  by_cases hps : ps = []
  · subst hps
    refine ⟨"", hopening _, ?_⟩
    split_ifs <;> rfl
  · have hvalue : stringParts (isRaw start.text)
        [contentTree c.position (pieceTrees ps c) (c.pass (pieceChars ps).length),
          charsTree .stringEnd n (c.pass (pieceChars ps).length)] =
        .ok ((if isRaw start.text then c.position.textTo (c.pass (pieceChars ps).length).position
          else String.join ((pieceTrees ps c).map piece)) ++ "") := rfl
    have hcontent := Position.textTo_advance h
    rw [Grammar.StringState.closed_gather _ hps]
    refine ⟨_, (hopening _).trans hvalue, ?_⟩
    rw [String.append_empty, Cursor.pass, hcontent, apply_ite String.toList, String.toList_ofList,
      toList_join, flatMap_piece h]

end Literal

/-! ## Whole literals -/

/-- A string literal without interpolations that is no bytes literal. -/
structure StringLiteral where
  flags : List Char
  mark : Char
  triple : Bool
  items : List Item

namespace StringLiteral

/-- The letters that can stand before the quotes. -/
def flagWords : List (List Char) :=
  ["", "r", "R", "u", "U", "f", "F", "fr", "fR", "Fr", "FR", "rf", "rF", "Rf", "RF"].map
    String.toList

/-- How the literal is delimited and read. -/
def quote (l : StringLiteral) : Quote where
  mark := l.mark
  triple := l.triple
  format := l.flags.any fun c => c == 'f' || c == 'F'
  raw := l.flags.any fun c => c == 'r' || c == 'R'
  bytes := false

def opening (l : StringLiteral) : List Char := l.flags ++ l.quote.marks

/-- How the literal is written. -/
def chars (l : StringLiteral) : List Char :=
  l.opening ++ (writtenText l.items ++ l.quote.marks)

/-- The literal can stand before the rest of the text. -/
structure IsWritten (l : StringLiteral) (after : List Char) : Prop where
  flags : l.flags ∈ flagWords
  mark : l.mark = '\'' ∨ l.mark = '"'
  items : Fit l.quote (l.quote.marks ++ after) l.items
  /-- Two quotes alone are an empty string, which no third one may follow. -/
  apart : l.triple = false → l.items = [] → after.head? ≠ some l.mark

variable {l : StringLiteral}

lemma IsWritten.isTextual (h : l.IsWritten after) : l.quote.IsTextual := ⟨h.mark, rfl⟩

lemma forall_flag {p : Char → Bool} (hp : ['r', 'R', 'u', 'U', 'f', 'F'].all p = true)
    (hw : w ∈ flagWords) : ∀ c ∈ w, p c = true := by
  have hwords : (flagWords.all fun w => w.all ['r', 'R', 'u', 'U', 'f', 'F'].contains) = true := by
    decide
  intro c hc
  have hflag := List.all_eq_true.1 (List.all_eq_true.1 hwords w hw) c hc
  exact List.all_eq_true.1 hp c (List.contains_iff_mem.1 hflag)

/-- A string that is not in three quotes does not open with three. -/
lemma IsWritten.not_triple (h : l.IsWritten after) (htriple : l.triple = false) :
    ¬ [l.mark, l.mark] <+: writtenText l.items ++ (l.quote.marks ++ after) := by
  have hmarks : l.quote.marks = [l.mark] := by
    rw [Quote.marks, quote, htriple]
    rfl
  rintro ⟨rest, hrest⟩
  cases hitems : l.items with
  | nil =>
    rw [hitems, hmarks] at hrest
    have hafter : l.mark :: rest = after := (List.cons.inj hrest).2
    exact h.apart htriple hitems (by rw [← hafter]; rfl)
  | cons i r =>
    have hfit := h.items
    rw [hitems] at hrest hfit
    have hhead : i.written.head? = some l.mark := by
      cases i <;> exact congrArg List.head? hrest.symm
    obtain rfl := Quote.eq_char_of_written h.isTextual hfit.1 hhead
    have hquote := (hfit.1.2.2.2.1 rfl).1
    rw [quote, htriple] at hquote
    cases hquote

lemma chars_append (l : StringLiteral) (after : List Char) : l.chars ++ after =
    l.flags ++ (l.quote.marks ++ (writtenText l.items ++ (l.quote.marks ++ after))) := by
  simp [chars, opening]

lemma opening_chars (h : l.IsWritten after) :
    Quote.opening (l.chars ++ after) = some (l.quote, l.opening.length) := by
  have hflags : ∀ c ∈ l.flags, Quote.isFlag c = true := forall_flag (by decide) h.flags
  have hbytes : (l.flags.any fun c => c == 'b' || c == 'B') = false := by
    have hnot := forall_flag (p := fun c => !(c == 'b' || c == 'B')) (by decide) h.flags
    simpa using hnot
  obtain ⟨r, hr⟩ := l.quote.exists_marks
  have hmark : Quote.isFlag l.mark = false := by
    rcases h.mark with hm | hm <;> rw [hm] <;> decide
  have htake : (l.chars ++ after).takeWhile Quote.isFlag = l.flags := by
    have hnot : ¬ Quote.isFlag l.quote.mark = true := by
      rw [Bool.not_eq_true]
      exact hmark
    rw [l.chars_append, List.takeWhile_append_of_pos hflags, hr, List.cons_append,
      List.takeWhile_cons_of_neg hnot, List.append_nil]
  have hdrop : (l.chars ++ after).drop l.flags.length =
      l.quote.marks ++ (writtenText l.items ++ (l.quote.marks ++ after)) := by
    rw [l.chars_append, List.drop_left]
  have hapart := h.not_triple
  unfold Quote.opening
  simp only [htake, hdrop, hbytes]
  generalize writtenText l.items ++ (l.quote.marks ++ after) = rest at hapart
  cases htriple : l.triple with
  | true =>
    rcases h.mark with hm | hm <;> simp [Quote.marks, quote, opening, htriple, hm]
  | false =>
    have hthird (r : List Char) : rest ≠ l.mark :: l.mark :: r := fun hr =>
      hapart htriple ⟨r, hr.symm⟩
    rcases h.mark with hm | hm <;> rw [hm] at hthird <;>
      simp only [Quote.marks, quote, opening, htriple, hm, Bool.false_eq_true, if_false,
        List.singleton_append, List.length_append, List.length_singleton]

/-- No blank space, comment or line continuation stands in front of a literal. -/
lemma measure_chars (h : l.IsWritten after) :
    Margin.of false (l.chars ++ after) = { rest := l.chars ++ after } := by
  obtain ⟨c, r, hcs, hc⟩ : ∃ c r, l.chars ++ after = c :: r ∧
      c ∈ ['r', 'R', 'u', 'U', 'f', 'F', '\'', '"'] := by
    obtain ⟨m, hm⟩ := l.quote.exists_marks
    cases hflags : l.flags with
    | nil =>
      refine ⟨l.mark, m ++ (writtenText l.items ++ (l.quote.marks ++ after)), ?_, ?_⟩
      · rw [chars_append, hflags, List.nil_append]
        nth_rewrite 1 [hm]
        rfl
      · rcases h.mark with hm | hm <;> rw [hm] <;> decide
    | cons c w =>
      have hflag :=
        forall_flag (p := ['r', 'R', 'u', 'U', 'f', 'F', '\'', '"'].contains) (by decide)
          h.flags c (by rw [hflags]; exact List.mem_cons_self)
      refine ⟨c, w ++ (l.quote.marks ++ (writtenText l.items ++ (l.quote.marks ++ after))), ?_, ?_⟩
      · rw [chars_append, hflags, List.cons_append]
      · exact List.contains_iff_mem.1 hflag
  rw [hcs]
  simp only [List.mem_cons, List.not_mem_nil, or_false] at hc
  rcases hc with rfl | rfl | rfl | rfl | rfl | rfl | rfl | rfl <;>
    simp [Margin.of, Margin.measure]

/-- The token at a literal is its opening quote. -/
lemma next_chars (h : l.IsWritten after) (hrest : c.position.rest = l.chars ++ after)
    (inFormat : Bool) (margins : List Nat) (fuel : Nat) (comments : List Comment) :
    Token.next .operand inFormat margins (fuel + 1) comments c.position =
      ⟨.quote l.quote, c.position, c.position.advance l.opening.length, comments⟩ := by
  have hlayout : LayoutToken.next .operand inFormat margins c.position.rest = (none, some 0) := by
    simp [hrest, LayoutToken.next, Expected.operand, measure_chars h]
  have hopening : Quote.opening (c.position.advance 0).rest = some (l.quote, l.opening.length) := by
    rw [Position.advance, hrest, opening_chars h]
  rw [Token.next, hlayout]
  simp only [Option.bind_some, hopening, Option.map_some]
  rfl

/-- A string where an operand may begin. -/
def operandString (self : Goal → Reading Tree) : Reading Tree := do
  let _ ← peek .operand
  Grammar.string self

/-- A string is read as its opening, its inside and a node over them. -/
lemma operandString_of_inside {ts : List Tree} (hahead : c.ahead = none)
    (hnext : Token.next .operand c.inFormat c.margins (c.size + 1) [] c.position =
      ⟨.quote q, c.position, c.position.advance n, []⟩)
    (hinside : Grammar.stringInside self q [charsTree .stringStart n c]
      { c.pass n with inFormat := q.format } = some (ts, d)) :
    operandString self c = some (.node ⟨.string, none, c.position.line, d.position.line,
      c.position.textTo d.position⟩ ts, { d with inFormat := false }) := by
  obtain ⟨position, margins, inFormat, ahead, size⟩ := c
  subst hahead
  have hpeek : peek .operand ⟨position, margins, inFormat, none, size⟩ =
      some (⟨.quote q, position, position.advance n, []⟩, ⟨position, margins, inFormat,
        some ⟨.quote q, position, position.advance n, []⟩, size⟩) := by
    rw [← hnext]
    rfl
  have hstring : Grammar.string self ⟨position, margins, inFormat,
      some ⟨.quote q, position, position.advance n, []⟩, size⟩ =
      (Grammar.stringInside self q
        [charsTree .stringStart n ⟨position, margins, inFormat, none, size⟩]
        ⟨position.advance n, margins, q.format, none, size⟩).bind fun r =>
        some (.node ⟨.string, none, position.line, r.2.position.line,
          position.textTo r.2.position⟩ r.1, { r.2 with inFormat := false }) := rfl
  have hread : operandString self ⟨position, margins, inFormat, none, size⟩ =
      (peek .operand ⟨position, margins, inFormat, none, size⟩).bind fun r =>
        Grammar.string self r.2 := rfl
  rw [hread, hpeek, Option.bind_some, hstring]
  exact congrArg (Option.bind · _) hinside

lemma isRaw_opening (h : l.IsWritten after) :
    Literal.isRaw (String.ofList l.opening) = l.quote.raw := by
  have hflags := forall_flag (p := fun c => c ≠ '"' && c ≠ '\'') (by decide) h.flags
  obtain ⟨r, hr⟩ := l.quote.exists_marks
  have hmark : ¬ (decide (l.quote.mark ≠ '"') && decide (l.quote.mark ≠ '\'')) = true := by
    rcases h.isTextual.mark with hm | hm <;> rw [hm] <;> decide
  have hnone : (l.quote.mark :: r).takeWhile (fun c => c ≠ '"' && c ≠ '\'') = [] :=
    List.takeWhile_cons_of_neg hmark
  rw [Literal.isRaw, String.toList_ofList, opening, hr,
    List.takeWhile_append_of_pos hflags, hnone, List.append_nil]
  rfl

/-- A literal is read as one node over all of it, which has a text. That is the text that Python
gives the literal just if it is read faithfully: outside raw strings if no line end with a carriage
return is escaped and no octal code of fewer than three digits stands before another decimal digit,
and in raw strings if no brace is doubled and the last run is not made of backslashes alone, with
what they keep from being read. -/
theorem stringValue_eq_pythonText_iff (self : Goal → Reading Tree) (h : l.IsWritten after)
    (hrest : c.position.rest = l.chars ++ after) (hahead : c.ahead = none)
    (hsize : c.position.rest.length ≤ c.size) :
    ∃ t d s, operandString self c = some (t, d) ∧ d.position.rest = after ∧ t.kind = .string ∧
      t.text = String.ofList l.chars ∧ Literal.stringValue t = .ok s ∧
      (s.toList = pythonText l.items ↔ Faithful l.quote l.items) := by
  obtain ⟨ps, e, hcuts, hvalue⟩ := exists_cuts h.isTextual h.items
  have hopening : c.position.rest =
      l.opening ++ (writtenText l.items ++ (l.quote.marks ++ after)) := by
    rw [hrest, chars, List.append_assoc, List.append_assoc]
  -- what stands behind the opening quote
  set inside : Cursor := { c.pass l.opening.length with inFormat := l.quote.format }
  have hrestInside : inside.position.rest = writtenText l.items ++ (l.quote.marks ++ after) :=
    Cursor.rest_pass hopening
  have hpieces := (hcuts.eq_append).1
  have hchars : l.chars = l.opening ++ (pieceChars ps ++ e) := by
    have hend : writtenText l.items ++ l.quote.marks = pieceChars ps ++ e := by
      rw [← List.append_assoc, ← List.append_assoc] at hpieces
      exact List.append_cancel_right hpieces
    rw [chars, hend]
  rw [← hrestInside] at hcuts
  have hsizeInside : inside.position.rest.length ≤ inside.size := by
    rw [hopening, List.length_append] at hsize
    rw [hrestInside]
    exact Nat.le_of_add_left_le hsize
  have hread := Grammar.stringInside_of_cuts self hcuts hsizeInside
    [charsTree .stringStart l.opening.length c]
  have hstring := operandString_of_inside hahead
    (next_chars h hrest c.inFormat c.margins c.size []) hread
  have hstop : (inside.pass (pieceChars ps ++ e).length).position =
      c.position.advance l.chars.length := by
    rw [hchars, Position.advance_append]
    rfl
  obtain ⟨s, hs, htext⟩ := Literal.stringParts_closed (n := e.length)
    (charsTree .stringStart l.opening.length c) rfl (hrestInside.trans hpieces) false
  refine ⟨_, _, s, hstring, ?_, rfl, ?_, hs, ?_⟩
  · rw [hstop, Position.rest_advance, hrest, List.drop_left]
  · rw [hstop]
    exact Position.textTo_advance hrest
  · rw [htext, text_charsTree hopening, isRaw_opening h]
    exact hvalue

/-- A letter and a code before a line end in the source. -/
theorem stringValue_eq_pythonText_iff_code :
    let l : StringLiteral := ⟨[], '\'', false, [.char 'a', .sign 'n', .code 'x' ['4', '1']]⟩
    let c : Cursor := ⟨.start (l.chars ++ ['\n']), [], false, none, 11⟩
    (l.IsWritten ['\n'] ∧ c.position.rest = l.chars ++ ['\n'] ∧ c.ahead = none ∧
        c.position.rest.length ≤ c.size) ∧
      ∃ t d s, operandString (fun _ => failure) c = some (t, d) ∧ d.position.rest = ['\n'] ∧
        t.kind = .string ∧ t.text = String.ofList l.chars ∧ Literal.stringValue t = .ok s ∧
        (s.toList = pythonText l.items ↔ Faithful l.quote l.items) := by
  intro l c
  have hwritten : l.IsWritten ['\n'] := by
    refine ⟨by decide, .inl rfl, ⟨?_, ?_, ?_, trivial⟩, fun _ => by decide⟩
    · exact ⟨by decide, by decide, by decide, by decide, by decide⟩
    · exact ⟨rfl, by decide⟩
    · have hdigits : ['4', '1'].all isHexDigit = true := by decide
      exact ⟨rfl, by decide, List.all_eq_true.1 hdigits, .inl (by decide)⟩
  exact ⟨⟨hwritten, rfl, rfl, by decide⟩,
    stringValue_eq_pythonText_iff (fun _ => failure) hwritten rfl rfl (by decide)⟩

/-- Not every literal has the text that Python gives it: of a null before an eight the code is kept
as it is written. -/
theorem not_stringValue_eq_pythonText :
    ¬ ∀ (self : Goal → Reading Tree) (l : StringLiteral) (after : List Char) (c : Cursor),
      l.IsWritten after → c.position.rest = l.chars ++ after → c.ahead = none →
      c.position.rest.length ≤ c.size →
      ∃ t d, operandString self c = some (t, d) ∧
        Literal.stringValue t = .ok (String.ofList (pythonText l.items)) := by
  intro h
  have hread : ((operandString (fun _ => failure)
      ⟨.start ['\'', '\\', '0', '8', '\''], [], false, none, 5⟩).map fun r =>
        Literal.stringValue r.1) = some (.ok "\\08") := rfl
  have hwritten : (⟨[], '\'', false, [.octal ['0'], .char '8']⟩ : StringLiteral).IsWritten [] := by
    refine ⟨by decide, .inl rfl, ⟨?_, ?_, trivial⟩, by simp⟩
    · refine ⟨rfl, by decide, by decide, List.forall_mem_singleton.2 (by decide), ?_⟩
      rintro - d ⟨⟩
      decide
    · exact ⟨by decide, by decide, by decide, by decide, by decide⟩
  obtain ⟨t, d, htree, hvalue⟩ := h (fun _ => failure) _ []
    ⟨.start ['\'', '\\', '0', '8', '\''], [], false, none, 5⟩ hwritten rfl rfl (by decide)
  rw [htree, Option.map_some, hvalue] at hread
  have htext := congrArg String.toList (Except.ok.inj (Option.some.inj hread))
  rw [String.toList_ofList] at htext
  exact absurd htext (by decide)

end StringLiteral

end Source

end AddonAtlas
