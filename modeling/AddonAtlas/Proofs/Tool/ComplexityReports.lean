import AddonAtlas.Tool.ComplexityReport
import AddonAtlas.Proofs.Decimal.Whole
import AddonAtlas.Proofs.Json.RoundTrip
import Mathlib.Data.List.Basic

/-!
Reports of a linter.

A message names the number that stands behind its first announcement with digits. Digits of any
script end the search, but only a number in ASCII digits counts, so a message with other digits
before names none. The complexity that is reported is the float of the largest number that the
messages name.
-/

namespace AddonAtlas.Tool.ComplexityReport

open Text Decimal

variable {p q : Char → Bool} {cs ds : List Char} {report text : String} {n : Nat}

/-- Digits of some kind stand behind an announcement, all that are there, and behind no announcement
before. -/
def FirstDigits (p : Char → Bool) (cs ds : List Char) : Prop :=
  ∃ x r, cs = x ++ announcement.toList ++ ds ++ r ∧ ds ≠ [] ∧ (∀ c ∈ ds, p c = true) ∧
    (∀ c ∈ r.head?, p c = false) ∧
      ∀ y c s, cs = y ++ announcement.toList ++ c :: s → p c = true → x.length ≤ y.length

/-- A text is a message in a report. -/
def HasMessage (report text : String) : Prop :=
  ∃ files, Json.read? report = some (.list files) ∧ Value.allFinite files = true ∧
    ∃ file ∈ files, ∃ l, field? file "messages" = some (.list l) ∧
      ∃ m ∈ l, field? m "message" = some (.text text)

/-- A message in a report names a number behind its first announcement with digits of some kind. -/
def Names (p : Char → Bool) (report : String) (n : Nat) : Prop :=
  ∃ text ds, HasMessage report text ∧ FirstDigits p text.toList ds ∧
    (∀ c ∈ ds, c.isDigit = true) ∧ ofDigits 10 ds = n

/-- The complexity in a report is the float of the largest number that its messages name. -/
def ReadsLargest (p : Char → Bool) (report : String) : Prop :=
  (∀ n, ¬ Names p report n) ∧ read? report = none ∨
    ∃ n, IsGreatest {n | Names p report n} n ∧ read? report = some (Float.ofNat n)

/-! ## The first digits of a message -/

/-- The digits of some kind behind the first announcement that has some. -/
def firstDigits? (p : Char → Bool) : List Char → Option (List Char)
  | [] => none
  | c :: r =>
    let ds := ((c :: r).drop announcement.length).takeWhile p
    if announcement.toList.isPrefixOf (c :: r) && !ds.isEmpty then some ds else firstDigits? p r

lemma digits?_eq (cs : List Char) : digits? cs = firstDigits? isDigit cs := by
  induction cs with
  | nil => rfl
  | cons c r ih => rw [digits?, firstDigits?, ih]

/-- Where an announcement with digits stands, its digits are taken. -/
lemma firstDigits?_announcement {s : List Char} {c : Char} (hc : p c = true) :
    firstDigits? p (announcement.toList ++ c :: s) = some ((c :: s).takeWhile p) := by
  obtain ⟨a, t, hcons⟩ : ∃ a t, announcement.toList ++ c :: s = a :: t := ⟨_, _, rfl⟩
  have hdrop : (announcement.toList ++ c :: s).drop announcement.length = c :: s := by
    rw [← String.length_toList, List.drop_left]
  have hannounced : announcement.toList.isPrefixOf (announcement.toList ++ c :: s) = true :=
    List.isPrefixOf_iff_prefix.2 (List.prefix_append _ _)
  rw [hcons, firstDigits?, ← hcons, hdrop, hannounced]
  simp [hc]

/-- Where none stands, the search goes on. -/
lemma firstDigits?_cons {c : Char} {r : List Char}
    (h : ∀ d s, c :: r = announcement.toList ++ d :: s → p d = false) :
    firstDigits? p (c :: r) = firstDigits? p r := by
  rw [firstDigits?]
  refine if_neg fun htaken => ?_
  obtain ⟨hannounced, hsome⟩ := Bool.and_eq_true_iff.1 htaken
  obtain ⟨t, ht⟩ := List.isPrefixOf_iff_prefix.1 hannounced
  rw [← ht, ← String.length_toList, List.drop_left] at hsome
  cases t with
  | nil => simp at hsome
  | cons d s => simp [h d s ht.symm] at hsome

lemma takeWhile_append_digits {r : List Char} (hds : ∀ c ∈ ds, p c = true)
    (hr : ∀ c ∈ r.head?, p c = false) : (ds ++ r).takeWhile p = ds := by
  rw [List.takeWhile_append_of_pos hds]
  cases r with
  | nil => simp
  | cons c r => simp [hr c rfl]

lemma firstDigits_announcement {s : List Char} {c : Char} (hc : p c = true) :
    FirstDigits p (announcement.toList ++ c :: s) ds ↔ (c :: s).takeWhile p = ds := by
  constructor
  · rintro ⟨x, r, heq, -, hds, hr, hfirst⟩
    obtain rfl : x = [] := List.length_eq_zero_iff.1 (Nat.le_zero.1 (hfirst [] c s rfl hc))
    rw [List.nil_append, List.append_assoc, List.append_cancel_left_eq] at heq
    rw [heq, takeWhile_append_digits hds hr]
  · rintro rfl
    refine ⟨[], (c :: s).dropWhile p, ?_, ?_, fun d hd => List.mem_takeWhile_imp hd, ?_,
      fun _ _ _ _ _ => Nat.zero_le _⟩
    · rw [List.nil_append, List.append_assoc, List.takeWhile_append_dropWhile]
    · simp [hc]
    · intro d hd
      have hhead := List.head?_dropWhile_not p (c :: s)
      rw [hd] at hhead
      simpa using hhead

lemma firstDigits_cons {c : Char} {r : List Char}
    (h : ∀ d s, c :: r = announcement.toList ++ d :: s → p d = false) :
    FirstDigits p (c :: r) ds ↔ FirstDigits p r ds := by
  constructor
  · rintro ⟨x, t, heq, hne, hds, ht, hfirst⟩
    cases x with
    | nil =>
      obtain ⟨d, s, rfl⟩ := List.exists_cons_of_ne_nil hne
      have hd := h d (s ++ t) (by simpa using heq)
      rw [hds d List.mem_cons_self] at hd
      cases hd
    | cons e x =>
      refine ⟨x, t, (List.cons.inj heq).2, hne, hds, ht, fun y d s hy hd => ?_⟩
      exact Nat.le_of_succ_le_succ (hfirst (c :: y) d s (by rw [hy]; rfl) hd)
  · rintro ⟨x, t, rfl, hne, hds, ht, hfirst⟩
    refine ⟨c :: x, t, rfl, hne, hds, ht, fun y d s hy hd => ?_⟩
    cases y with
    | nil =>
      have hd' := h d s hy
      rw [hd] at hd'
      cases hd'
    | cons e y => exact Nat.succ_le_succ (hfirst y d s (List.cons.inj hy).2 hd)

lemma firstDigits?_eq_some_iff : firstDigits? p cs = some ds ↔ FirstDigits p cs ds := by
  induction cs with
  | nil =>
    refine iff_of_false (fun h => nomatch h) ?_
    rintro ⟨x, r, heq, hne, -⟩
    simp [hne] at heq
  | cons c r ih =>
    by_cases h : ∃ d s, c :: r = announcement.toList ++ d :: s ∧ p d = true
    · obtain ⟨d, s, heq, hd⟩ := h
      rw [heq, firstDigits?_announcement hd, firstDigits_announcement hd, Option.some_inj]
    · have hnone : ∀ d s, c :: r = announcement.toList ++ d :: s → p d = false :=
        fun d s heq => Bool.not_eq_true _ ▸ fun hd => h ⟨d, s, heq, hd⟩
      rw [firstDigits?_cons hnone, firstDigits_cons hnone, ih]

lemma isDigit_of_ascii {c : Char} (h : c.isDigit = true) : isDigit c = true := by
  have hsmall := (Char.isDigit_iff_toNat.1 h).2
  have hnine : '9'.toNat = 57 := rfl
  rw [isDigit, if_pos (by omega), h]

/-- ASCII digits that come first among digits of all scripts come first among ASCII digits. -/
lemma firstDigits?_ascii
    (h : ∀ ds, firstDigits? isDigit cs = some ds → ∀ c ∈ ds, c.isDigit = true) :
    firstDigits? Char.isDigit cs = firstDigits? isDigit cs := by
  induction cs with
  | nil => rfl
  | cons c r ih =>
    by_cases htaken : ∃ d s, c :: r = announcement.toList ++ d :: s ∧ isDigit d = true
    · obtain ⟨d, s, heq, hd⟩ := htaken
      rw [heq, firstDigits?_announcement hd] at h ⊢
      have hall := h _ rfl
      have hd' : d.isDigit = true := hall d (by simp [hd])
      have hrest : ∀ e ∈ ((d :: s).dropWhile isDigit).head?, e.isDigit = false := by
        intro e he
        have hhead := List.head?_dropWhile_not isDigit (d :: s)
        rw [he] at hhead
        rw [← Bool.not_eq_true]
        intro hdigit
        simp [isDigit_of_ascii hdigit] at hhead
      have hsame := takeWhile_append_digits hall hrest
      rw [List.takeWhile_append_dropWhile] at hsame
      rw [firstDigits?_announcement hd', hsame]
    · have hnone : ∀ d s, c :: r = announcement.toList ++ d :: s → isDigit d = false :=
        fun d s heq => Bool.not_eq_true _ ▸ fun hd => htaken ⟨d, s, heq, hd⟩
      have hnone' : ∀ d s, c :: r = announcement.toList ++ d :: s → d.isDigit = false :=
        fun d s heq => Bool.not_eq_true _ ▸ fun hd => htaken ⟨d, s, heq, isDigit_of_ascii hd⟩
      rw [firstDigits?_cons hnone] at h ⊢
      rw [firstDigits?_cons hnone', ih h]

/-! ## The largest number of a report -/

/-- The number that a message names. -/
def number? (text : String) : Option Nat :=
  ((digits? text.toList).filter fun ds => ds.all Char.isDigit).map (ofDigits 10)

/-- The messages in a report. -/
def texts (report : String) : List String :=
  match Json.read? report with
  | some (.list files) => if Value.allFinite files then files.flatMap messages else []
  | _ => []

lemma complexity?_eq (text : String) : complexity? text = (number? text).map Float.ofNat := by
  rw [complexity?, number?]
  cases digits? text.toList with
  | none => rfl
  | some ds =>
    rw [Option.bind_some, Option.filter_some]
    split
    · rename_i hall
      rw [nearest_zero (List.all_eq_true.1 hall)]
      rfl
    · rfl

lemma number?_eq_some_iff : number? text = some n ↔ ∃ ds, FirstDigits isDigit text.toList ds ∧
    (∀ c ∈ ds, c.isDigit = true) ∧ ofDigits 10 ds = n := by
  rw [number?, Option.map_eq_some_iff]
  simp only [Option.filter_eq_some_iff, digits?_eq, firstDigits?_eq_some_iff, List.all_eq_true,
    and_assoc]

lemma mem_messages_iff {file : Value} : text ∈ messages file ↔
    ∃ l, field? file "messages" = some (.list l) ∧
      ∃ m ∈ l, field? m "message" = some (.text text) := by
  have htext (v : Value) : v.text? = some text ↔ v = .text text := by
    cases v <;> simp [Value.text?]
  rw [messages]
  split
  · rename_i l hl
    simp [hl, List.mem_filterMap, Option.bind_eq_some_iff, htext]
  · rename_i hnone
    simp only [List.not_mem_nil, false_iff]
    rintro ⟨l, hl, -⟩
    exact hnone l hl

lemma mem_texts_iff : text ∈ texts report ↔ HasMessage report text := by
  rw [texts, HasMessage]
  split
  · rename_i files hfiles
    simp only [hfiles, Option.some.injEq, Value.list.injEq, exists_eq_left']
    split
    · rename_i hfinite
      simp only [hfinite, true_and, List.mem_flatMap, mem_messages_iff]
    · rename_i hinfinite
      simp [hinfinite]
  · rename_i hnone
    simp only [List.not_mem_nil, false_iff]
    rintro ⟨files, hfiles, -⟩
    exact hnone files hfiles

lemma mem_numbers_iff : n ∈ (texts report).filterMap number? ↔ Names isDigit report n := by
  simp only [List.mem_filterMap, mem_texts_iff, number?_eq_some_iff]
  constructor
  · rintro ⟨text, htext, ds, hds⟩
    exact ⟨text, ds, htext, hds⟩
  · rintro ⟨text, ds, htext, hds⟩
    exact ⟨text, htext, ds, hds⟩

lemma foldl_ofNat (l : List Nat) (n : Nat) :
    (l.map Float.ofNat).foldl (fun a b => if a < b then b else a) (Float.ofNat n) =
      Float.ofNat (l.foldl max n) := by
  induction l generalizing n with
  | nil => rfl
  | cons m l ih => rw [List.map_cons, List.foldl_cons, ← ofNat_max, ih, List.foldl_cons]

lemma filterMap_complexity? (l : List String) :
    l.filterMap complexity? = (l.filterMap number?).map Float.ofNat := by
  rw [List.map_filterMap]
  exact List.filterMap_congr fun text _ => complexity?_eq text

/-- The complexity in a report is the float of the largest number. -/
lemma read?_eq (report : String) :
    read? report = ((texts report).filterMap number?).max?.map Float.ofNat := by
  rw [read?, texts]
  cases Json.read? report with
  | none => rfl
  | some v =>
    cases v with
    | list files =>
      dsimp only
      split
      · rw [filterMap_complexity?]
        cases (files.flatMap messages).filterMap number? with
        | nil => rfl
        | cons n l => exact congrArg some (foldl_ofNat l n)
      · rfl
    | _ => rfl

lemma readsLargest_isDigit (report : String) : ReadsLargest isDigit report := by
  rw [ReadsLargest, read?_eq]
  cases hmax : ((texts report).filterMap number?).max? with
  | none =>
    rw [List.max?_eq_none_iff] at hmax
    refine .inl ⟨fun n hn => ?_, rfl⟩
    rw [← mem_numbers_iff, hmax] at hn
    cases hn
  | some n =>
    obtain ⟨hmem, hle⟩ := List.max?_eq_some_iff.1 hmax
    exact .inr ⟨n, ⟨mem_numbers_iff.1 hmem, fun m hm => hle m (mem_numbers_iff.2 hm)⟩, rfl⟩

/-- Digits that are not ASCII ones make no difference where ASCII digits come first. -/
lemma readsLargest_ascii
    (h : ∀ text ds, HasMessage report text → FirstDigits isDigit text.toList ds →
      ∀ c ∈ ds, c.isDigit = true) : ReadsLargest Char.isDigit report := by
  have hsame (text : String) (ds : List Char) (htext : HasMessage report text) :
      FirstDigits Char.isDigit text.toList ds ↔ FirstDigits isDigit text.toList ds := by
    rw [← firstDigits?_eq_some_iff, ← firstDigits?_eq_some_iff, firstDigits?_ascii]
    intro ds hds
    exact h text ds htext (firstDigits?_eq_some_iff.1 hds)
  have hnames : Names Char.isDigit report = Names isDigit report := by
    funext n
    refine propext ⟨?_, ?_⟩
    · rintro ⟨text, ds, htext, hds, hrest⟩
      exact ⟨text, ds, htext, (hsame text ds htext).1 hds, hrest⟩
    · rintro ⟨text, ds, htext, hds, hrest⟩
      exact ⟨text, ds, htext, (hsame text ds htext).2 hds, hrest⟩
  rw [ReadsLargest, hnames]
  exact readsLargest_isDigit report

/-! ## Reports of one message -/

/-- What a linter says about a file with one message. -/
def fileOf (text : String) : Value :=
  .object [("messages", .list [.object [("message", .text text)]])]

/-- A report on one file, with one message. -/
def reportOf (text : String) : String := Json.compact (.list [fileOf text])

/-- A message that names a number. -/
def naming (n : Nat) : String := announcement ++ toString n

lemma messages_fileOf (text : String) : messages (fileOf text) = [text] := by
  have hfield (name : String) (v : Value) : field? (.object [(name, v)]) name = some v :=
    OrdMap.get?_insert_self .empty name v
  simp only [messages, fileOf, hfield, List.filterMap_cons, List.filterMap_nil, Option.bind_some,
    Value.text?]

lemma texts_reportOf (text : String) : texts (reportOf text) = [text] := by
  have hwritable : (Value.list [fileOf text]).Writable :=
    .list <| List.forall_mem_singleton.2 <| .object <| List.forall_mem_singleton.2 <|
      .list <| List.forall_mem_singleton.2 <| .object <| List.forall_mem_singleton.2 <| .text text
  have hdepth : (Value.list [fileOf text]).depth ≤ Json.deepest := by
    have hfour : (Value.list [fileOf text]).depth = 4 := by
      simp [fileOf, Value.depth, Value.depthItems, Value.depthFields]
    rw [hfour]
    decide
  have hfinite : Value.allFinite [fileOf text] = true := by
    simp [fileOf, Value.allFinite, Value.isFinite, Value.allFieldsFinite]
  rw [texts, reportOf, Json.read?_compact hwritable, if_pos hdepth]
  simp only [hfinite, if_true, List.flatMap_singleton, messages_fileOf]

lemma ofDigits_toDigits (n : Nat) : ofDigits 10 (Nat.toDigits 10 n) = n := by
  have hsame : ofDigits 10 (Nat.toDigits 10 n) = Nat.ofDigitChars 10 (Nat.toDigits 10 n) 0 :=
    List.foldl_ext _ _ _ fun m c hc => by
      rw [Json.digitValue_of_isDigit (Json.isDigit_of_mem hc), Nat.mul_comm]
  exact hsame.trans Nat.ofDigitChars_ten_toDigits

lemma number?_naming (n : Nat) : number? (naming n) = some n := by
  have htext : (naming n).toList = announcement.toList ++ Nat.toDigits 10 n := by
    rw [naming, String.toList_append]
    exact congrArg _ String.toList_ofList
  have hall : ∀ c ∈ Nat.toDigits 10 n, c.isDigit = true := fun c hc => Json.isDigit_of_mem hc
  obtain ⟨c, s, hcons⟩ := List.exists_cons_of_ne_nil (Nat.toDigits_ne_nil (b := 10) (n := n))
  have hc : isDigit c = true := isDigit_of_ascii (hall c (hcons ▸ List.mem_cons_self))
  have htaken : (Nat.toDigits 10 n).takeWhile isDigit = Nat.toDigits 10 n :=
    List.takeWhile_eq_self_iff.2 fun c hc => isDigit_of_ascii (hall c hc)
  rw [number?, digits?_eq, htext, hcons, firstDigits?_announcement hc, ← hcons, htaken,
    Option.filter_some, if_pos (List.all_eq_true.2 hall), Option.map_some, ofDigits_toDigits]

/-- Every number can be named. -/
lemma numbers_reportOf (n : Nat) : (texts (reportOf (naming n))).filterMap number? = [n] := by
  rw [texts_reportOf, List.filterMap_cons, number?_naming, List.filterMap_nil]

lemma names_reportOf {m : Nat} : Names isDigit (reportOf (naming n)) m ↔ m = n := by
  rw [← mem_numbers_iff, numbers_reportOf, List.mem_singleton]

lemma read?_reportOf (n : Nat) : read? (reportOf (naming n)) = some (Float.ofNat n) := by
  rw [read?_eq, numbers_reportOf]
  rfl

end AddonAtlas.Tool.ComplexityReport
