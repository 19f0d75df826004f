import AddonAtlas.Proofs.Source.StringItems
import Mathlib.Data.List.Induction
import Mathlib.Tactic.IntervalCases
import Mathlib.Tactic.Linarith

/-!
The pieces of the inside of a string, and what they stand for.

Outside raw strings an escape is one piece, which stands for what the escape stands for but in two
cases: of an escaped line end with a carriage return nothing goes, and a short octal code takes the
decimal digits behind it along and is then none. A raw string keeps its inside as it is written,
without the backslashes that no piece has seen before the closing quote.
-/

namespace AddonAtlas.Source

open AddonAtlas.Text

variable {q : Quote} {i : Item} {items a b : List Item} {tail after rest r w : List Char} {c : Char}

/-! ## What escapes stand for -/

namespace Literal

lemma digitValue_lt_of_isHexDigit {c : Char} (h : isHexDigit c = true) : digitValue c < 16 := by
  simp only [isHexDigit, Bool.or_eq_true, Bool.and_eq_true, decide_eq_true_eq, Char.isDigit,
    Char.le_def, UInt32.le_iff_toNat_le] at h
  simp only [digitValue, Char.isDigit, Char.le_def, UInt32.le_iff_toNat_le, Bool.and_eq_true,
    decide_eq_true_eq, Char.toNat]
  simp at h ⊢
  split_ifs <;> omega

lemma ofDigits_lt {b : Nat} {ds : List Char} (h : ∀ d ∈ ds, digitValue d < b) :
    ofDigits b ds < b ^ ds.length := by
  induction ds using List.reverseRecOn with
  | nil => exact Nat.one_pos
  | append_singleton ds d ih =>
    have hds := ih fun x hx => h x (List.mem_append_left _ hx)
    have hd := h d (by simp)
    have hfold : ofDigits b (ds ++ [d]) = ofDigits b ds * b + digitValue d := by
      simp [ofDigits]
    rw [hfold, List.length_append, List.length_singleton, Nat.pow_succ]
    nlinarith

lemma charOf?_of_isValidChar {n : Nat} (h : n.isValidChar) : charOf? n = some (Char.ofNat n) := by
  have hn : n < 0xD800 ∨ 0xDFFF < n ∧ n < 0x110000 := h
  simp only [charOf?, Bool.or_eq_true, Bool.and_eq_true, decide_eq_true_eq]
  rw [if_pos hn]

lemma unescape_sign (hc : c ∈ Item.signs) :
    (unescape (String.ofList ['\\', c])).toList = [Item.signValue c] := by
  simp only [Item.signs, List.mem_cons, List.not_mem_nil, or_false] at hc
  rcases hc with rfl | rfl | rfl | rfl | rfl | rfl | rfl | rfl | rfl | rfl <;> rfl

lemma unescape_code {letter : Char} {ds : List Char}
    (hletter : (letter, ds.length) ∈ [('x', 2), ('u', 4), ('U', 8)])
    (hds : ∀ d ∈ ds, isHexDigit d = true) (hvalid : (ofDigits 16 ds).isValidChar) :
    (unescape (String.ofList ('\\' :: letter :: ds))).toList = [Char.ofNat (ofDigits 16 ds)] := by
  have hdigits : ds.all (fun c => digitValue c < 16) = true :=
    List.all_eq_true.2 fun d hd => decide_eq_true (digitValue_lt_of_isHexDigit (hds d hd))
  have hchar := charOf?_of_isValidChar hvalid
  simp only [List.mem_cons, Prod.mk.injEq, List.not_mem_nil, or_false] at hletter
  have hne : ds.isEmpty = false := by
    rcases hletter with ⟨-, hn⟩ | ⟨-, hn⟩ | ⟨-, hn⟩ <;> (cases ds <;> simp at hn ⊢)
  rcases hletter with ⟨rfl, -⟩ | ⟨rfl, -⟩ | ⟨rfl, -⟩ <;>
    simp [unescape, hdigits, hchar, hne]

lemma digitValue_of_isOctal (h : IsOctal c) : digitValue c < 8 := by
  have hoctal :
      ['0', '1', '2', '3', '4', '5', '6', '7'].all (fun d => digitValue d < 8) = true := by
    decide
  exact of_decide_eq_true (List.all_eq_true.1 hoctal c h)

lemma isDigit_of_isOctal (h : IsOctal c) : c.isDigit = true := by
  have hoctal : ['0', '1', '2', '3', '4', '5', '6', '7'].all Char.isDigit = true := by decide
  exact List.all_eq_true.1 hoctal c h

/-- An escape that begins with an octal digit is a code if all its digits are octal. -/
lemma unescape_digits (hc : IsOctal c) (r : List Char) :
    unescape (String.ofList ('\\' :: c :: r)) =
      if (c :: r).all (fun d => digitValue d < 8) then
        match charOf? (ofDigits 8 (c :: r)) with
        | some d => String.singleton d
        | none => String.ofList ('\\' :: c :: r)
      else String.ofList ('\\' :: c :: r) := by
  have hcode : unescape (String.ofList ('\\' :: c :: r)) =
      if (!(c :: r).all fun d => digitValue d < 8) = true then String.ofList ('\\' :: c :: r)
      else match charOf? (ofDigits 8 (c :: r)) with
        | some d => String.singleton d
        | none => String.ofList ('\\' :: c :: r) := by
    rw [unescape, String.toList_ofList]
    simp only [IsOctal, List.mem_cons, List.not_mem_nil, or_false] at hc
    rcases hc with rfl | rfl | rfl | rfl | rfl | rfl | rfl | rfl <;> rfl
  rw [hcode]
  cases (c :: r).all fun d => decide (digitValue d < 8) <;> rfl

lemma unescape_octal {ds : List Char} (hne : ds ≠ []) (hlen : ds.length ≤ 3)
    (hds : ∀ d ∈ ds, IsOctal d) :
    (unescape (String.ofList ('\\' :: ds))).toList = [Char.ofNat (ofDigits 8 ds)] := by
  obtain ⟨c, r, rfl⟩ := List.exists_cons_of_ne_nil hne
  have hvalues : ∀ d ∈ c :: r, digitValue d < 8 := fun d hd => digitValue_of_isOctal (hds d hd)
  have hall : (c :: r).all (fun d => digitValue d < 8) = true :=
    List.all_eq_true.2 fun d hd => decide_eq_true (hvalues d hd)
  -- three digits do not reach the surrogates
  have hlt := ofDigits_lt hvalues
  have hpow : 8 ^ (c :: r).length ≤ 8 ^ 3 := Nat.pow_le_pow_right (by decide) hlen
  have hvalid : (ofDigits 8 (c :: r)).isValidChar := .inl (by omega)
  rw [unescape_digits (hds c List.mem_cons_self), if_pos hall, charOf?_of_isValidChar hvalid]
  exact String.toList_singleton _

/-- Digits that are not octal make no code. -/
lemma unescape_kept (hc : c = '8' ∨ c = '9' ∨ IsOctal c ∧ ∃ d ∈ r, d = '8' ∨ d = '9') :
    unescape (String.ofList ('\\' :: c :: r)) = String.ofList ('\\' :: c :: r) := by
  rcases hc with rfl | rfl | ⟨hoctal, d, hd, hdigit⟩
  · simp [unescape]
  · simp [unescape]
  · have hall : ¬ (c :: r).all (fun d => digitValue d < 8) = true := fun hall => by
      have hlt := of_decide_eq_true (List.all_eq_true.1 hall d (List.mem_cons_of_mem c hd))
      rcases hdigit with rfl | rfl <;> exact absurd hlt (by decide)
    rw [unescape_digits hoctal, if_neg hall]

end Literal

/-! ## The inside of a string, cut into pieces -/

/-- How the inside of a string comes apart: the pieces of its content, each with the kind of its
node, and what closes it. -/
inductive Cuts (q : Quote) (after : List Char) :
    List Char → List (Kind × List Char) → List Char → Prop
  | closing {e : List Char} (h : q.nextPiece (e ++ after) = some (.closing e.length)) :
    Cuts q after (e ++ after) [] e
  | piece {k : Kind} {w cs e : List Char} {ps : List (Kind × List Char)} {p : Quote.Piece}
    (hw : w ≠ []) (hp : q.nextPiece (w ++ cs) = some p) (hk : p.content? = some (k, w.length))
    (h : Cuts q after cs ps e) : Cuts q after (w ++ cs) ((k, w) :: ps) e

/-- What a piece stands for outside raw strings. -/
def pieceText (p : Kind × List Char) : List Char :=
  match p.1 with
  | .escapeSequence => (Literal.unescape (String.ofList p.2)).toList
  | .escapeInterpolation => p.2.take 1
  | _ => p.2

/-- The characters of pieces. -/
def pieceChars (ps : List (Kind × List Char)) : List Char := ps.flatMap Prod.snd

/-- Whether some item is taken for something else: an escaped line end with a carriage return, or an
octal code of fewer than three digits before another decimal digit. -/
def misreads : List Item → Bool
  | [] => false
  | .lineBreak carriage :: r => carriage || misreads r
  | .octal ds :: r =>
    (decide (ds.length < 3) && (r.head? == some (.char '8') || r.head? == some (.char '9'))) ||
      misreads r
  | _ :: r => misreads r

/-- The text that pieces give: it is what Python makes of it, or it is longer. -/
def Gives (misread : Bool) (python text : List Char) : Prop :=
  if misread then python.length < text.length else text = python

lemma Gives.append {m : Bool} {p t : List Char} (h : Gives m p t) (v : List Char) :
    Gives m (v ++ p) (v ++ t) := by
  cases m with
  | true =>
    have hlt : p.length < t.length := h
    simp only [Gives, if_true, List.length_append]
    omega
  | false => exact congrArg (v ++ ·) h

lemma Gives.longer {m : Bool} {p t v w : List Char} (h : Gives m p t) (hlt : v.length < w.length) :
    Gives true (v ++ p) (w ++ t) := by
  have hle : p.length ≤ t.length := by
    cases m with
    | true => exact Nat.le_of_lt h
    | false => exact (congrArg List.length (h : t = p)).ge
  simp only [Gives, if_true, List.length_append]
  omega

/-! ### Outside raw strings -/

lemma misreads_map_char (cs : List Char) (r : List Item) :
    misreads (cs.map .char ++ r) = misreads r := by
  induction cs with
  | nil => rfl
  | cons c cs ih => exact ih

/-- The digits behind an escape are items of their own. -/
lemma exists_digits (hq : q.IsTextual) (h : Fit q (q.marks ++ after) items) (n : Nat) :
    ∃ ds r, items = ds.map .char ++ r ∧ (∀ d ∈ ds, d.isDigit = true) ∧
      ((writtenText items ++ (q.marks ++ after)).take n).takeWhile Char.isDigit = ds := by
  induction n generalizing items with
  | zero => exact ⟨[], items, rfl, by simp, rfl⟩
  | succ n ih =>
    have hnone {c : Char} {cs : List Char} (hc : c.isDigit = false)
        (hcs : writtenText items ++ (q.marks ++ after) = c :: cs) :
        ∃ ds r, items = ds.map .char ++ r ∧ (∀ d ∈ ds, d.isDigit = true) ∧
          ((writtenText items ++ (q.marks ++ after)).take (n + 1)).takeWhile Char.isDigit = ds := by
      refine ⟨[], items, rfl, by simp, ?_⟩
      rw [hcs, List.take_succ_cons, List.takeWhile_cons_of_neg (by simp [hc])]
    cases items with
    | nil =>
      obtain ⟨m, hm⟩ := q.exists_marks
      have hmark : q.mark.isDigit = false := by
        rcases hq.mark with hm | hm <;> rw [hm] <;> decide
      exact hnone hmark (by rw [hm]; rfl)
    | cons i r =>
      cases i with
      | char c =>
        cases hc : c.isDigit with
        | false => exact hnone hc rfl
        | true =>
          obtain ⟨ds, r', rfl, hds, htake⟩ := ih h.2
          refine ⟨c :: ds, r', rfl, List.forall_mem_cons.2 ⟨hc, hds⟩, ?_⟩
          have hcons : writtenText (Item.char c :: (ds.map .char ++ r')) ++ (q.marks ++ after) =
              c :: (writtenText (ds.map .char ++ r') ++ (q.marks ++ after)) := rfl
          rw [hcons, List.take_succ_cons, List.takeWhile_cons_of_pos hc, htake]
      | brace c =>
        have hbrace : c.isDigit = false := by
          rcases h.1.2 with rfl | rfl <;> decide
        exact hnone hbrace rfl
      | lineBreak | sign | code | octal | digit | pair => exact hnone (c := '\\') (by decide) rfl

lemma isOctal_of_isDigit (h : c.isDigit = true) : IsOctal c ∨ c = '8' ∨ c = '9' := by
  have hc : c = Char.ofNat c.toNat := (Char.ofNat_toNat c).symm
  have hle : 48 ≤ c.toNat ∧ c.toNat ≤ 57 := by
    simpa [Char.isDigit, Char.le_def, UInt32.le_iff_toNat_le] using h
  obtain ⟨hlow, hhigh⟩ := hle
  generalize c.toNat = n at hc hlow hhigh
  subst hc
  interval_cases n <;> decide

@[simp] lemma pythonText_map_char (cs : List Char) : pythonText (cs.map .char) = cs := by
  induction cs with
  | nil => rfl
  | cons c cs ih => rw [List.map_cons, pythonText_cons, ih]; rfl

/-- An escape in digits takes the decimal digits behind it along, up to three in all. -/
lemma exists_digitPiece (hq : q.IsTextual) (hraw : q.raw = false) (ds : List Char)
    (hc : c.isDigit = true) (hds : ∀ d ∈ ds, d.isDigit = true) (hlen : ds.length ≤ 2)
    (hfit : Fit q (q.marks ++ after) items) :
    ∃ more r, items = more.map .char ++ r ∧ (∀ d ∈ more, d.isDigit = true) ∧
      (ds.length < 2 → more = [] → ∀ x, items.head? = some (.char x) → x.isDigit = false) ∧
      (more ≠ [] → ds.length < 2) ∧
      q.nextPiece ('\\' :: c :: (ds ++ more) ++ (writtenText r ++ (q.marks ++ after))) =
        some (.escape ('\\' :: c :: (ds ++ more)).length) := by
  obtain ⟨more, r, hitems, hmore, htake⟩ := exists_digits hq hfit (2 - ds.length)
  refine ⟨more, r, hitems, hmore, ?_, ?_, ?_⟩
  · intro hshort hnil x hx
    obtain ⟨rest, rfl⟩ := List.head?_eq_some_iff.1 hx
    obtain ⟨k, hk⟩ : ∃ k, 2 - ds.length = k + 1 := ⟨1 - ds.length, by omega⟩
    by_contra hdigit
    rw [Bool.not_eq_false] at hdigit
    rw [hk, hnil, writtenText_cons, Item.written, List.append_assoc, List.singleton_append,
      List.take_succ_cons, List.takeWhile_cons_of_pos hdigit] at htake
    cases htake
  · intro hne
    by_contra hlong
    have hzero : 2 - ds.length = 0 := by omega
    rw [hzero, List.take_zero] at htake
    exact hne htake.symm
  · have hdigits : ((ds ++ (writtenText items ++ (q.marks ++ after))).take 2).takeWhile
        Char.isDigit = ds ++ more := by
      rw [List.take_append, List.take_of_length_le hlen, List.takeWhile_append_of_pos hds, htake]
    have hlength := Quote.escapeLength_digit hc (ds ++ (writtenText items ++ (q.marks ++ after)))
    have hpiece := Quote.nextPiece_escape hq hraw hlength
    have hwritten : '\\' :: c :: (ds ++ (writtenText items ++ (q.marks ++ after))) =
        '\\' :: c :: (ds ++ more) ++ (writtenText r ++ (q.marks ++ after)) := by
      rw [hitems, writtenText_append, writtenText_map_char]
      simp
    rw [hdigits, hwritten] at hpiece
    rw [hpiece, List.length_cons, List.length_cons]
    congr 2
    omega

lemma exists_chars (hraw : q.raw = false) (h : Fit q tail (a ++ b))
    (hstop : ∀ i ∈ a, i.stops = false) : ∃ cs : List Char, a = cs.map .char := by
  induction a with
  | nil => exact ⟨[], rfl⟩
  | cons i a ih =>
    obtain ⟨hi, ha⟩ := List.forall_mem_cons.1 hstop
    obtain ⟨cs, rfl⟩ := ih h.2 ha
    cases i with
    | char c => exact ⟨c :: cs, rfl⟩
    | pair kept eol =>
      have hpair := h.1.1
      rw [hraw] at hpair
      cases hpair
    | brace | lineBreak | sign | code | octal | digit => cases hi

/-- Items are cut into pieces up to the closing quote, and these give the text that Python gives,
unless some item is misread. -/
def Told (q : Quote) (after : List Char) (items : List Item) : Prop :=
  ∃ ps, Cuts q after (writtenText items ++ (q.marks ++ after)) ps q.marks ∧
    Gives (misreads items) (pythonText items) (ps.flatMap pieceText)

/-- One piece, and those of the items behind it. -/
lemma Told.piece {w v : List Char} {k : Kind} {p : Quote.Piece} (h : Told q after b) (hw : w ≠ [])
    (htext : writtenText items = w ++ writtenText b)
    (hpython : pythonText items = v ++ pythonText b)
    (hp : q.nextPiece (w ++ (writtenText b ++ (q.marks ++ after))) = some p)
    (hk : p.content? = some (k, w.length))
    (hgives : ∀ t, Gives (misreads b) (pythonText b) t →
      Gives (misreads items) (v ++ pythonText b) (pieceText (k, w) ++ t)) : Told q after items := by
  obtain ⟨ps, hcuts, hps⟩ := h
  refine ⟨(k, w) :: ps, ?_, ?_⟩
  · rw [htext, List.append_assoc]
    exact .piece hw hp hk hcuts
  · rw [hpython]
    exact hgives _ hps

/-- A piece of plain characters. -/
lemma Told.chars {cs : List Char} (h : Told q after b) (hcs : cs ≠ [])
    (hp : q.nextPiece (cs ++ (writtenText b ++ (q.marks ++ after))) = some (.plain cs.length)) :
    Told q after (cs.map .char ++ b) := by
  have htext : writtenText (cs.map .char ++ b) = cs ++ writtenText b := by
    rw [writtenText_append, writtenText_map_char]
  refine h.piece (v := cs) (k := .token) hcs htext ?_ hp rfl fun t ht => ?_
  · rw [pythonText_append, pythonText_map_char]
  · rw [misreads_map_char]
    exact ht.append cs

lemma isSilent_char (hraw : q.raw = false) (h : (Item.char c).Fits q rest) :
    (Item.char c).isSilent = false := by
  by_contra hsilent
  have hback : c = '\\' := by simpa [Item.isSilent] using hsilent
  have hraw' := (h.2.2.2.2 hback).1
  rw [hraw] at hraw'
  cases hraw'

/-- A run of plain characters. -/
lemma told_run (hq : q.IsTextual) (hraw : q.raw = false)
    (h : Fit q (q.marks ++ after) (.char c :: items))
    (ih : ∀ b, b.length < (Item.char c :: items).length → Fit q (q.marks ++ after) b →
      Told q after b) : Told q after (.char c :: items) := by
  have hseen := isSilent_char hraw h.1
  have hnext := Quote.nextPiece_of_not_stops h.1 rfl (writtenText items ++ (q.marks ++ after))
  rw [← List.append_assoc, ← writtenText_cons] at hnext
  obtain ⟨-, hsilent⟩ | ⟨a, j, b, -, -, hsilent, -⟩ | ⟨a, b, hitems, hne, hstop, he, -⟩ :=
    (Quote.run_plainRun hq h 0 false).passed rfl
  · rw [hsilent _ List.mem_cons_self] at hseen
    cases hseen
  · rw [hsilent _ List.mem_cons_self] at hseen
    cases hseen
  · rw [he] at hnext
    rw [hitems] at h ih hnext ⊢
    -- what is passed are characters
    obtain ⟨cs, rfl⟩ := exists_chars hraw h hstop
    have hcs : cs ≠ [] := by simpa using hne
    have hlen : b.length < (cs.map Item.char ++ b).length := by
      have hpos := List.length_pos_iff.2 hne
      rw [List.length_append]
      omega
    rw [writtenText_map_char, writtenText_append, writtenText_map_char, List.append_assoc] at hnext
    exact (ih b hlen h.of_append).chars hcs hnext

lemma misreads_octal_of_no_digit {ds : List Char}
    (h : ds.length < 3 → ∀ d, items.head? = some (.char d) → d.isDigit = false) :
    misreads (.octal ds :: items) = misreads items := by
  have hhead {d : Char} (hd : d.isDigit = true) (hlt : ds.length < 3) :
      items.head? ≠ some (.char d) := fun hitems => by
    rw [h hlt d hitems] at hd
    cases hd
  by_cases hlt : ds.length < 3
  · have h8 := hhead (d := '8') (by decide) hlt
    have h9 := hhead (d := '9') (by decide) hlt
    simp [misreads, h8, h9]
  · simp [misreads, hlt]

lemma misreads_octal_digit {ds : List Char} (hlt : ds.length < 3) (hc : c = '8' ∨ c = '9') :
    misreads (.octal ds :: .char c :: items) = true := by
  rcases hc with rfl | rfl <;> simp [misreads, hlt]

lemma pieceText_kept (h : c = '8' ∨ c = '9' ∨ IsOctal c ∧ ∃ d ∈ r, d = '8' ∨ d = '9') :
    pieceText (.escapeSequence, '\\' :: c :: r) = '\\' :: c :: r := by
  rw [pieceText, Literal.unescape_kept h, String.toList_ofList]

/-- A code in octal digits, with the decimal digits that are taken along. -/
lemma told_octal (hq : q.IsTextual) (hraw : q.raw = false) {ds : List Char}
    (h : Fit q (q.marks ++ after) (.octal ds :: items))
    (ih : ∀ b, b.length < (Item.octal ds :: items).length → Fit q (q.marks ++ after) b →
      Told q after b) : Told q after (.octal ds :: items) := by
  obtain ⟨-, hne, hle, hoctal, hlongest⟩ := h.1
  obtain ⟨c, ds, rfl⟩ := List.exists_cons_of_ne_nil hne
  have hdigits : ∀ d ∈ c :: ds, d.isDigit = true := fun d hd =>
    Literal.isDigit_of_isOctal (hoctal d hd)
  obtain ⟨more, r, rfl, hmore, hnone, hshort, hp⟩ := exists_digitPiece hq hraw ds
    (hdigits c List.mem_cons_self) (fun d hd => hdigits d (List.mem_cons_of_mem c hd))
    (Nat.le_of_succ_le_succ hle) h.2
  have hlen : r.length < (Item.octal (c :: ds) :: (more.map .char ++ r)).length := by
    rw [List.length_cons, List.length_append]
    omega
  refine (ih r hlen h.2.of_append).piece (v := Char.ofNat (ofDigits 8 (c :: ds)) :: more)
    (k := .escapeSequence) (List.cons_ne_nil _ _) ?_ ?_ hp rfl fun t ht => ?_
  · simp [Item.written]
  · simp [Item.value]
  · cases more with
    | nil =>
      have htext : pieceText (.escapeSequence, '\\' :: c :: (ds ++ [])) =
          [Char.ofNat (ofDigits 8 (c :: ds))] := by
        rw [List.append_nil]
        exact Literal.unescape_octal hne hle hoctal
      have hsame : misreads (.octal (c :: ds) :: ([].map .char ++ r)) = misreads r :=
        misreads_octal_of_no_digit fun hlt => hnone (Nat.lt_of_succ_lt_succ hlt) rfl
      rw [htext, hsame]
      exact ht.append _
    | cons d more =>
      -- the digit behind the code is not octal, so nothing is a code
      have hlt : (c :: ds).length < 3 := Nat.succ_lt_succ (hshort (List.cons_ne_nil d more))
      have hd : d = '8' ∨ d = '9' := by
        have hnot := hlongest hlt d rfl
        exact (isOctal_of_isDigit (hmore d List.mem_cons_self)).resolve_left hnot
      have htext : pieceText (.escapeSequence, '\\' :: c :: (ds ++ d :: more)) =
          '\\' :: c :: (ds ++ d :: more) :=
        pieceText_kept (.inr (.inr ⟨hoctal c List.mem_cons_self, d, by simp, hd⟩))
      have hmisread : misreads (.octal (c :: ds) :: ((d :: more).map .char ++ r)) = true :=
        misreads_octal_digit hlt hd
      rw [htext, hmisread]
      have hlonger : (Char.ofNat (ofDigits 8 (c :: ds)) :: d :: more).length <
          ('\\' :: c :: (ds ++ d :: more)).length := by
        simp only [List.length_cons, List.length_append]
        omega
      exact ht.longer hlonger

/-- A backslash before a digit that is not octal, with the decimal digits that are taken along. -/
lemma told_digit (hq : q.IsTextual) (hraw : q.raw = false)
    (h : Fit q (q.marks ++ after) (.digit c :: items))
    (ih : ∀ b, b.length < (Item.digit c :: items).length → Fit q (q.marks ++ after) b →
      Told q after b) : Told q after (.digit c :: items) := by
  have hc : c.isDigit = true := by rcases h.1.2 with rfl | rfl <;> decide
  obtain ⟨more, r, rfl, hmore, -, -, hp⟩ := exists_digitPiece hq hraw [] hc (by simp) (by simp) h.2
  have hlen : r.length < (Item.digit c :: (more.map .char ++ r)).length := by
    rw [List.length_cons, List.length_append]
    omega
  refine (ih r hlen h.2.of_append).piece (v := '\\' :: c :: more) (k := .escapeSequence)
    (List.cons_ne_nil _ _) ?_ ?_ hp rfl fun t ht => ?_
  · simp [Item.written]
  · simp [Item.value]
  · have htext : pieceText (.escapeSequence, '\\' :: c :: ([] ++ more)) = '\\' :: c :: more :=
      pieceText_kept (h.1.2.imp id .inl)
    have hsame : misreads (.digit c :: (more.map .char ++ r)) = misreads r :=
      misreads_map_char more r
    rw [htext, hsame]
    exact ht.append _

/-- Outside raw strings a string has the text that Python gives it, unless some item is misread. -/
lemma told_of_not_raw (hq : q.IsTextual) (hraw : q.raw = false)
    (h : Fit q (q.marks ++ after) items) : Told q after items := by
  induction hn : items.length using Nat.strong_induction_on generalizing items with
  | _ n ih =>
  subst hn
  have ih : ∀ b, b.length < items.length → Fit q (q.marks ++ after) b → Told q after b :=
    fun b hb hfit => ih b.length hb hfit rfl
  cases items with
  | nil => exact ⟨[], .closing (Quote.nextPiece_marks hq after), rfl⟩
  | cons i r =>
    have hr := ih r (Nat.lt_succ_self _) h.2
    cases i with
    | char c => exact told_run hq hraw h ih
    | octal ds => exact told_octal hq hraw h ih
    | digit c => exact told_digit hq hraw h ih
    | brace c =>
      exact hr.piece (w := [c, c]) (v := [c]) (by simp) rfl rfl
        (Quote.nextPiece_brace h.1.1 h.1.2 _) rfl fun t ht => ht.append [c]
    | lineBreak carriage =>
      have hp := Quote.nextPiece_escape hq hraw
        (Quote.escapeLength_lineBreak carriage (writtenText r ++ (q.marks ++ after)))
      refine hr.piece (List.cons_ne_nil _ _) rfl rfl hp rfl fun t ht => ?_
      cases carriage with
      | true => exact ht.longer (v := []) (w := ['\\', '\r', '\n']) (by decide)
      | false => exact ht
    | sign c =>
      have hp := Quote.nextPiece_escape hq hraw
        (Quote.escapeLength_sign h.1.2 (writtenText r ++ (q.marks ++ after)))
      refine hr.piece (w := ['\\', c]) (by simp) rfl rfl hp rfl fun t ht => ?_
      have htext : pieceText (.escapeSequence, ['\\', c]) = [Item.signValue c] :=
        Literal.unescape_sign h.1.2
      rw [htext]
      exact ht.append _
    | code letter ds =>
      obtain ⟨-, hletter, hds, hvalid⟩ := h.1
      have hp := Quote.nextPiece_escape hq hraw
        (Quote.escapeLength_code hletter hds (writtenText r ++ (q.marks ++ after)))
      refine hr.piece (w := '\\' :: letter :: ds) (k := .escapeSequence) (List.cons_ne_nil _ _) rfl
        rfl hp ?_ fun t ht => ?_
      · rw [Quote.Piece.content?, List.length_cons, List.length_cons, Nat.add_comm 2]
      · have htext : pieceText (.escapeSequence, '\\' :: letter :: ds) =
            [Char.ofNat (ofDigits 16 ds)] := Literal.unescape_code hletter hds hvalid
        rw [htext]
        exact ht.append _
    | pair kept eol =>
      have hpair := h.1.1
      rw [hraw] at hpair
      cases hpair

/-! ### Raw strings -/

/-- The items behind the last one that begins a new piece. -/
def lastRun (q : Quote) : List Item → List Item
  | [] => []
  | i :: r => if (i :: r).any (Item.breaks q) then lastRun q r else i :: r

/-- What a raw string loses at its end: the last run, if all of it passes unseen. -/
def hidden (q : Quote) (items : List Item) : List Item :=
  if (lastRun q items).all Item.isSilent then lastRun q items else []

lemma lastRun_append_break (hi : i.breaks q = true) (a b : List Item) :
    lastRun q (a ++ i :: b) = lastRun q b := by
  induction a with
  | nil => simp [lastRun, hi]
  | cons j a ih =>
    have hany : (j :: (a ++ i :: b)).any (Item.breaks q) = true := by simp [hi]
    rw [List.cons_append, lastRun, if_pos hany, ih]

lemma hidden_append_break (hi : i.breaks q = true) (a b : List Item) :
    hidden q (a ++ i :: b) = hidden q b := by
  rw [hidden, hidden, lastRun_append_break hi]

lemma lastRun_of_no_break (h : ∀ i ∈ items, i.breaks q = false) : lastRun q items = items := by
  cases items with
  | nil => rfl
  | cons i r =>
    have hany : (i :: r).any (Item.breaks q) = false := by simpa using h
    rw [lastRun, hany]
    rfl

lemma breaks_of_isSilent (hq : q.IsTextual) (h : i.isSilent = true) : i.breaks q = false := by
  obtain rfl | ⟨kept, eol, rfl⟩ := Item.eq_of_isSilent h
  · simpa [Item.breaks] using hq.ne (c := '\\') (by decide)
  · rfl

/-- In a raw string runs stop at braces only. -/
lemma exists_brace_of_stops (hraw : q.raw = true) (hfits : i.Fits q rest) (h : i.stops = true) :
    ∃ c, i = .brace c := by
  obtain ⟨c, rfl⟩ | hbrace | ⟨kept, eol, rfl⟩ := hfits.eq_of_raw hraw
  · cases h
  · exact hbrace
  · cases h

/-- The characters of a line end are items of their own. -/
lemma fit_lineEnd (hq : q.IsTextual) {eol : List Char} (heol : ∀ c ∈ eol, c = '\r' ∨ c = '\n')
    (htriple : '\n' ∈ eol → q.triple = true) (h : Fit q tail items) :
    Fit q tail (eol.map .char ++ items) := by
  induction eol with
  | nil => exact h
  | cons c eol ih =>
    have hc := heol c List.mem_cons_self
    have hmark : c ≠ q.mark := by
      rcases hc with rfl | rfl
      · exact hq.ne (by decide)
      · exact hq.ne (by decide)
    refine ⟨⟨?_, ?_, ?_, ?_, ?_⟩, ih (fun d hd => heol d (List.mem_cons_of_mem c hd))
      fun hd => htriple (List.mem_cons_of_mem c hd)⟩
    · rcases hc with rfl | rfl <;> decide
    · rcases hc with rfl | rfl <;> exact fun _ => by decide
    · rintro rfl
      exact htriple List.mem_cons_self
    · exact fun hc => absurd hc hmark
    · rcases hc with rfl | rfl <;> exact fun h => absurd h (by decide)

/-- What a backslash and a line end make behind a backslash: either all of it is an escape, or there
is none. -/
lemma escapeLength_lineEnd {eol : List Char} (hne : eol ≠ []) (heol : lineEnd (eol ++ rest) = eol) :
    Quote.escapeLength ('\\' :: (eol ++ rest)) = some (eol.length + 1) ∨
      eol = ['\r'] ∧ Quote.escapeLength ('\\' :: (eol ++ rest)) = none := by
  generalize htext : eol ++ rest = text at heol
  unfold lineEnd at heol
  split at heol
  · subst heol
    exact .inl rfl
  next r hnot =>
    subst heol
    refine .inr ⟨rfl, ?_⟩
    unfold Quote.escapeLength
    split
    next h => exact absurd (List.cons.inj h).2 (by simpa using hnot _)
    next h =>
      obtain ⟨rfl, rfl⟩ := List.cons.inj (List.cons.inj h).2
      rfl
    next h => exact absurd rfl (h '\r' r)
  · subst heol
    exact .inl rfl
  · exact absurd heol.symm hne

/-- Items that pass unseen begin with backslashes. -/
lemma head_of_unseen (ha : ∀ i ∈ a, i.isSilent = true) (hc : IsBrace c) :
    ∃ d ∈ (writtenText (a ++ .brace c :: b) ++ tail).head?, IsBrace d ∨ d = '\\' := by
  cases a with
  | nil => exact ⟨c, rfl, .inl hc⟩
  | cons x a =>
    obtain rfl | ⟨kept, eol, rfl⟩ := Item.eq_of_isSilent (ha x List.mem_cons_self)
    · exact ⟨'\\', rfl, .inr rfl⟩
    · exact ⟨'\\', rfl, .inr rfl⟩

/-- Before a brace or a backslash, an item that passed unseen begins with an escape or is cut behind
its backslash, and what is left of it are characters of a line end. -/
lemma exists_front (hq : q.IsTextual) (hfits : i.Fits q rest) (hsilent : i.isSilent = true)
    (hbehind : ∃ d ∈ rest.head?, IsBrace d ∨ d = '\\') :
    ∃ k w v p, i.written = w ++ v ∧ w ≠ [] ∧ (∀ c ∈ v, c = '\r' ∨ c = '\n') ∧
      ('\n' ∈ v → q.triple = true) ∧ Quote.runPiece (i.written ++ rest) .special = some p ∧
      p.content? = some (k, w.length) := by
  obtain rfl | ⟨kept, eol, rfl⟩ := Item.eq_of_isSilent hsilent
  · obtain ⟨-, -, hhead⟩ := hfits.2.2.2.2 rfl
    obtain ⟨d, hd, hbrace⟩ := hbehind
    obtain ⟨r, rfl⟩ := List.head?_eq_some_iff.1 hd
    have hnone : Quote.escapeLength ('\\' :: d :: r) = none := by
      rcases hbrace.resolve_right (hhead d hd).2 with rfl | rfl <;> rfl
    exact ⟨.token, ['\\'], [], .plain 1, rfl, by simp, by simp, by simp,
      Quote.runPiece_backslash hnone, rfl⟩
  · obtain ⟨-, hkept, heol, hnone, htriple⟩ := hfits
    have hchars : ∀ c ∈ eol, c = '\r' ∨ c = '\n' := fun c hc => mem_lineEnd (heol ▸ hc)
    cases kept with
    | some d =>
      have hsign : d ∈ Item.signs := by
        rcases hkept d rfl with rfl | rfl
        · rcases hq.mark with hm | hm <;> rw [hm] <;> decide
        · decide
      exact ⟨.escapeSequence, ['\\', d], eol, .escape 2, rfl, by simp, hchars,
        fun hn => htriple (by simp) (List.ne_nil_of_mem hn),
        Quote.runPiece_escape (Quote.escapeLength_sign hsign _), rfl⟩
    | none =>
      rcases escapeLength_lineEnd (hnone rfl) heol with hlength | ⟨rfl, hlength⟩
      · exact ⟨.escapeSequence, '\\' :: eol, [], .escape (eol.length + 1), by simp [Item.written],
          by simp, by simp, by simp, Quote.runPiece_escape hlength, rfl⟩
      · exact ⟨.token, ['\\'], ['\r'], .plain 1, rfl, by simp, by simp, by simp,
          Quote.runPiece_backslash hlength, rfl⟩

lemma stops_of_isSilent (h : i.isSilent = true) : i.stops = false := by
  obtain rfl | ⟨kept, eol, rfl⟩ := Item.eq_of_isSilent h <;> rfl

/-- Before a brace, what passed unseen is taken as escapes and backslashes. -/
lemma exists_unseen (hq : q.IsTextual) (hitems : items = a ++ .brace c :: b)
    (hfit : Fit q (q.marks ++ after) (i :: items)) (hsilent : i.isSilent = true)
    (ha : ∀ i ∈ a, i.isSilent = true)
    (hrun : Quote.plainRun q 0 0 false (writtenText (i :: items) ++ (q.marks ++ after)) =
      .special) :
    ∃ k w v p, i.written = w ++ v ∧ w ≠ [] ∧ Fit q (q.marks ++ after) (v.map .char ++ items) ∧
      q.nextPiece (writtenText (i :: items) ++ (q.marks ++ after)) = some p ∧
      p.content? = some (k, w.length) := by
  have hbehind : ∃ d ∈ (writtenText items ++ (q.marks ++ after)).head?, IsBrace d ∨ d = '\\' := by
    have hfits := hfit.2
    rw [hitems] at hfits ⊢
    exact head_of_unseen ha hfits.of_append.1.2
  have hnext := Quote.nextPiece_of_not_stops hfit.1 (stops_of_isSilent hsilent)
    (writtenText items ++ (q.marks ++ after))
  obtain ⟨k, w, v, p, hwritten, hw, hchars, htriple, hpiece, hk⟩ :=
    exists_front hq hfit.1 hsilent hbehind
  rw [writtenText_cons, List.append_assoc] at hrun ⊢
  rw [hrun, hpiece] at hnext
  exact ⟨k, w, v, p, hwritten, hw, fit_lineEnd hq hchars htriple hfit.2, hnext, hk⟩

/-- A raw string is cut into pieces that leave its hidden end to the closing quote. -/
def Kept (q : Quote) (after : List Char) (items : List Item) : Prop :=
  ∃ ps, Cuts q after (writtenText items ++ (q.marks ++ after)) ps
      (writtenText (hidden q items) ++ q.marks) ∧
    pieceChars ps ++ writtenText (hidden q items) = writtenText items

lemma Kept.piece {w : List Char} {k : Kind} {p : Quote.Piece} (h : Kept q after b) (hw : w ≠ [])
    (htext : writtenText items = w ++ writtenText b) (hhidden : hidden q items = hidden q b)
    (hp : q.nextPiece (writtenText items ++ (q.marks ++ after)) = some p)
    (hk : p.content? = some (k, w.length)) : Kept q after items := by
  obtain ⟨ps, hcuts, hps⟩ := h
  refine ⟨(k, w) :: ps, ?_, ?_⟩
  · rw [htext, List.append_assoc] at hp ⊢
    rw [hhidden]
    exact .piece hw hp hk hcuts
  · rw [htext, hhidden, ← hps, pieceChars, List.flatMap_cons, List.append_assoc]
    rfl

/-- A piece of plain characters. -/
lemma Kept.plain (h : Kept q after b) (hne : writtenText a ≠ [])
    (hhidden : hidden q (a ++ b) = hidden q b)
    (hp : q.nextPiece (writtenText (a ++ b) ++ (q.marks ++ after)) =
      some (.plain (writtenText a).length)) : Kept q after (a ++ b) :=
  h.piece hne writtenText_append hhidden hp rfl

/-- Nothing is kept of items that pass unseen up to the closing quote. -/
lemma kept_of_closing (hq : q.IsTextual) (hsilent : ∀ j ∈ items, j.isSilent = true)
    (hp : q.nextPiece (writtenText items ++ (q.marks ++ after)) =
      some (.closing ((writtenText items).length + q.marks.length))) : Kept q after items := by
  have hlast : lastRun q items = items :=
    lastRun_of_no_break fun j hj => breaks_of_isSilent hq (hsilent j hj)
  have hhidden : hidden q items = items := by
    rw [hidden, hlast, if_pos (List.all_eq_true.2 hsilent)]
  rw [← List.append_assoc, ← List.length_append] at hp
  refine ⟨[], ?_, by rw [hhidden]; rfl⟩
  rw [hhidden, ← List.append_assoc]
  exact .closing hp

/-- Of items that pass unseen up to a brace, the first one is kept as a piece of its own. -/
lemma kept_of_unseen (hq : q.IsTextual)
    (h : Fit q (q.marks ++ after) (i :: (a ++ .brace c :: b)))
    (hi : i.isSilent = true) (ha : ∀ j ∈ a, j.isSilent = true)
    (hrun : Quote.plainRun q 0 0 false
      (writtenText (i :: (a ++ .brace c :: b)) ++ (q.marks ++ after)) = .special)
    (ih : ∀ r, (writtenText r).length < (writtenText (i :: (a ++ .brace c :: b))).length →
      Fit q (q.marks ++ after) r → Kept q after r) : Kept q after (i :: (a ++ .brace c :: b)) := by
  obtain ⟨k, w, v, p, hwritten, hw, hfit, hp, hk⟩ := exists_unseen hq rfl h hi ha hrun
  have htext : writtenText (i :: (a ++ .brace c :: b)) =
      w ++ writtenText (v.map .char ++ (a ++ .brace c :: b)) := by
    rw [writtenText_cons, hwritten, writtenText_append (a := v.map .char), writtenText_map_char,
      List.append_assoc]
  have hhidden : hidden q (i :: (a ++ .brace c :: b)) =
      hidden q (v.map .char ++ (a ++ .brace c :: b)) := by
    rw [← List.cons_append, ← List.append_assoc, hidden_append_break rfl, hidden_append_break rfl]
  have hlen : (writtenText (v.map .char ++ (a ++ .brace c :: b))).length <
      (writtenText (i :: (a ++ .brace c :: b))).length := by
    have hpos := List.length_pos_iff.2 hw
    rw [htext, List.length_append]
    omega
  exact (ih _ hlen hfit).piece hw htext hhidden hp hk

/-- A run that has seen something hides nothing. -/
lemma hidden_of_content (hplain : ∀ i ∈ a, i.breaks q = false)
    (hseen : ∃ i ∈ a, i.isSilent = false) : hidden q a = [] := by
  have hall : ¬ a.all Item.isSilent = true := by simpa using hseen
  rw [hidden, lastRun_of_no_break hplain, if_neg hall]

/-- What a run leaves hides what it would have hidden with what the run has passed. -/
lemma hidden_of_parted (hraw : q.raw = true) (h : Fit q tail (a ++ b))
    (hparted : Quote.Parted q a b) : hidden q (a ++ b) = hidden q b := by
  obtain ⟨a, rfl⟩ | ⟨hbreaks, hseen, hend⟩ := hparted
  · rw [List.append_assoc, List.singleton_append,
      hidden_append_break (i := .char q.mark) (beq_self_eq_true q.mark)]
  · cases b with
    | nil =>
      rw [List.append_nil, hidden_of_content hbreaks hseen]
      rfl
    | cons j b =>
      obtain ⟨d, rfl⟩ := exists_brace_of_stops hraw h.of_append.1 (hend j rfl)
      rw [hidden_append_break rfl]
      exact (hidden_append_break (q := q) (i := .brace d) rfl [] b).symm

/-- The first item of a raw string that is no brace, with what is passed behind it. -/
lemma kept_run (hq : q.IsTextual) (hraw : q.raw = true)
    (h : Fit q (q.marks ++ after) (i :: items)) (hstop : i.stops = false)
    (ih : ∀ b, (writtenText b).length < (writtenText (i :: items)).length →
      Fit q (q.marks ++ after) b → Kept q after b) : Kept q after (i :: items) := by
  have hnext := Quote.nextPiece_of_not_stops h.1 hstop (writtenText items ++ (q.marks ++ after))
  rw [← List.append_assoc, ← writtenText_cons] at hnext
  obtain ⟨he, hsilent⟩ | ⟨a, j, b, rfl, he, hsilent, hj⟩ | ⟨a, b, hitems, hne, -, he, hparted⟩ :=
    (Quote.run_plainRun hq h 0 false).passed hstop
  · rw [he] at hnext
    exact kept_of_closing hq hsilent hnext
  · obtain ⟨d, rfl⟩ := exists_brace_of_stops hraw h.2.of_append.1 hj
    obtain ⟨hi, ha⟩ := List.forall_mem_cons.1 hsilent
    exact kept_of_unseen hq h hi ha he ih
  · rw [he] at hnext
    rw [hitems] at h ih hnext ⊢
    have hwritten := writtenText_ne_nil hne
    have hlen : (writtenText b).length < (writtenText (a ++ b)).length := by
      have hpos := List.length_pos_iff.2 hwritten
      rw [writtenText_append, List.length_append]
      omega
    exact (ih b hlen h.of_append).plain hwritten (hidden_of_parted hraw h hparted) hnext

/-- A raw string keeps what is written in it, but for its hidden end. -/
lemma kept_of_raw (hq : q.IsTextual) (hraw : q.raw = true)
    (h : Fit q (q.marks ++ after) items) : Kept q after items := by
  induction hn : (writtenText items).length using Nat.strong_induction_on generalizing items with
  | _ n ih =>
  subst hn
  have ih : ∀ b, (writtenText b).length < (writtenText items).length →
      Fit q (q.marks ++ after) b → Kept q after b := fun b hb hfit => ih _ hb hfit rfl
  cases items with
  | nil => exact ⟨[], .closing (Quote.nextPiece_marks hq after), rfl⟩
  | cons i r =>
    by_cases hstop : i.stops = true
    · obtain ⟨c, rfl⟩ := exists_brace_of_stops hraw h.1 hstop
      have hhidden : hidden q (.brace c :: r) = hidden q r :=
        hidden_append_break (q := q) (i := .brace c) rfl [] r
      have hlen : (writtenText r).length < (writtenText (.brace c :: r)).length := by
        rw [writtenText_cons, List.length_append, Item.written, List.length_cons]
        omega
      exact (ih r hlen h.2).piece (w := [c, c]) (k := .escapeInterpolation) (by simp) rfl hhidden
        (Quote.nextPiece_brace h.1.1 h.1.2 _) rfl
    · exact kept_run hq hraw h (by simpa using hstop) ih

/-! ### Both kinds of strings -/

/-- A string that is read as Python reads it: outside raw strings no item is misread, and a raw
string has neither a hidden end nor doubled braces. -/
def Faithful (q : Quote) (items : List Item) : Prop :=
  if q.raw then hidden q items = [] ∧ ∀ c, Item.brace c ∉ items else misreads items = false

lemma exists_append_lastRun (q : Quote) (items : List Item) :
    ∃ a, items = a ++ lastRun q items := by
  induction items with
  | nil => exact ⟨[], rfl⟩
  | cons i r ih =>
    unfold lastRun
    split_ifs
    · obtain ⟨a, ha⟩ := ih
      exact ⟨i :: a, congrArg (i :: ·) ha⟩
    · exact ⟨[], rfl⟩

lemma exists_append_hidden (q : Quote) (items : List Item) :
    (∃ a, items = a ++ hidden q items) ∧ ∀ i ∈ hidden q items, i.isSilent = true := by
  unfold hidden
  split_ifs with hall
  · exact ⟨exists_append_lastRun q items, List.all_eq_true.1 hall⟩
  · exact ⟨⟨items, (List.append_nil items).symm⟩, by simp⟩

lemma not_isBrace_of_isSilent (hq : q.IsTextual) (hfits : i.Fits q rest) (h : i.isSilent = true) :
    ∀ c ∈ i.written, ¬ IsBrace c := by
  obtain rfl | ⟨kept, eol, rfl⟩ := Item.eq_of_isSilent h
  · exact List.forall_mem_singleton.2 (by decide)
  · intro c hc
    simp only [Item.written, List.mem_cons, List.mem_append, Option.mem_toList] at hc
    rcases hc with rfl | hc | hc
    · decide
    · rcases hfits.2.1 c hc with rfl | rfl
      · exact hq.not_isBrace
      · decide
    · rcases mem_lineEnd (hfits.2.2.1 ▸ hc) with rfl | rfl <;> decide

/-- In a formatted raw string every brace is written twice. -/
lemma countP_brace_written (hq : q.IsTextual) (hraw : q.raw = true) (hformat : q.format = true)
    (h : Fit q tail items) : (writtenText items).countP (fun c => IsBrace c) =
      2 * (pythonText items).countP (fun c => IsBrace c) := by
  induction items with
  | nil => rfl
  | cons i r ih =>
    have hr := ih h.2
    have hi : i.written.countP (fun c => IsBrace c) = 2 * i.value.countP (fun c => IsBrace c) := by
      obtain ⟨c, rfl⟩ | ⟨c, rfl⟩ | ⟨kept, eol, rfl⟩ := h.1.eq_of_raw hraw
      · simp [Item.written, Item.value, h.1.2.1 hformat]
      · simp [Item.written, Item.value, h.1.2]
      · have hzero := List.countP_eq_zero.2 fun c hc =>
          decide_eq_false (not_isBrace_of_isSilent hq h.1 rfl c hc) ▸ Bool.false_ne_true
        have hvalue : (Item.pair kept eol).value = (Item.pair kept eol).written := rfl
        rw [hvalue, hzero]
    rw [writtenText_cons, pythonText_cons, List.countP_append, List.countP_append, hi, hr]
    omega

lemma pythonText_of_no_brace (hraw : q.raw = true) (h : Fit q tail items)
    (hnone : ∀ c, Item.brace c ∉ items) : pythonText items = writtenText items := by
  induction items with
  | nil => rfl
  | cons i r ih =>
    rw [pythonText_cons, writtenText_cons, ih h.2 fun c hc => hnone c (List.mem_cons_of_mem i hc)]
    obtain ⟨c, rfl⟩ | ⟨c, rfl⟩ | ⟨kept, eol, rfl⟩ := h.1.eq_of_raw hraw
    · rfl
    · exact absurd List.mem_cons_self (hnone c)
    · rfl

/-- A raw string has the text that Python gives it if nothing of it is hidden and no brace is
doubled. -/
lemma eq_pythonText_iff (hq : q.IsTextual) (hraw : q.raw = true) (h : Fit q tail items)
    {text : List Char} (htext : text ++ writtenText (hidden q items) = writtenText items) :
    text = pythonText items ↔ hidden q items = [] ∧ ∀ c, Item.brace c ∉ items := by
  -- what is hidden is not empty, and has no braces
  obtain ⟨⟨a, ha⟩, hsilent⟩ := exists_append_hidden q items
  have hfit : Fit q tail (hidden q items) := by
    rw [ha] at h
    exact h.of_append
  constructor
  · intro htold
    have hnone : ∀ c, Item.brace c ∉ items := by
      intro c hc
      obtain ⟨rest, hformat, hbrace⟩ := h.exists_fits hc
      have hcount := countP_brace_written hq hraw hformat h
      have hhidden : (writtenText (hidden q items)).countP (fun c => IsBrace c) = 0 := by
        refine List.countP_eq_zero.2 fun d hd => ?_
        obtain ⟨i, hi, hd⟩ := List.mem_flatMap.1 hd
        obtain ⟨rest, hfits⟩ := hfit.exists_fits hi
        simpa using not_isBrace_of_isSilent hq hfits (hsilent i hi) d hd
      have hpos : 0 < (pythonText items).countP (fun c => IsBrace c) :=
        List.countP_pos_iff.2 ⟨c, List.mem_flatMap.2 ⟨_, hc, List.mem_singleton_self c⟩,
          decide_eq_true hbrace⟩
      rw [← htext, List.countP_append, hhidden, htold] at hcount
      omega
    refine ⟨?_, hnone⟩
    rw [htold, pythonText_of_no_brace hraw h hnone] at htext
    have hnil : writtenText (hidden q items) = [] := by simpa using htext
    by_contra hne
    exact writtenText_ne_nil hne hnil
  · rintro ⟨hhidden, hnone⟩
    rw [hhidden, writtenText_nil, List.append_nil] at htext
    rw [htext, pythonText_of_no_brace hraw h hnone]

/-- A string is cut into pieces, which give the text that Python gives if it is read faithfully. -/
lemma exists_cuts (hq : q.IsTextual) (h : Fit q (q.marks ++ after) items) :
    ∃ ps e, Cuts q after (writtenText items ++ (q.marks ++ after)) ps e ∧
      ((if q.raw then pieceChars ps else ps.flatMap pieceText) = pythonText items ↔
        Faithful q items) := by
  unfold Faithful
  cases hraw : q.raw with
  | true =>
    obtain ⟨ps, hcuts, hps⟩ := kept_of_raw hq hraw h
    exact ⟨ps, _, hcuts, eq_pythonText_iff hq hraw h hps⟩
  | false =>
    obtain ⟨ps, hcuts, hgives⟩ := told_of_not_raw hq hraw h
    refine ⟨ps, _, hcuts, ?_⟩
    cases hmisread : misreads items with
    | false =>
      rw [hmisread] at hgives
      exact iff_of_true hgives rfl
    | true =>
      rw [hmisread] at hgives
      have hlt : (pythonText items).length < (ps.flatMap pieceText).length := hgives
      refine iff_of_false (fun heq => ?_) (by simp)
      have hlength : (ps.flatMap pieceText).length = (pythonText items).length :=
        congrArg List.length heq
      omega

end AddonAtlas.Source
