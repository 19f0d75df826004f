import AddonAtlas.Package.Basic
import AddonAtlas.Proofs.Ordered.Lookup
import AddonAtlas.Proofs.Text.Pattern
import Mathlib.Data.List.TakeWhile

/-!
The words of free texts.

A keyword is a whole run of word characters. No run goes on across a character of another kind, so
a text can be cut there: the runs of the whole are those of its two parts. So a package gathers the
same words from a text and from the parts into which it is cut. A search for letters between word
boundaries finds the same runs.
-/

namespace AddonAtlas

open Text

namespace Keywords

/-- A run of word characters in a text that can be made longer on neither side. -/
structure IsRun (w cs : List Char) : Prop where
  nonempty : w ≠ []
  word : ∀ c ∈ w, isWord c = true
  maximal : ∃ before after, cs = before ++ w ++ after ∧
    (∀ c ∈ before.getLast?, isWord c = false) ∧ ∀ c ∈ after.head?, isWord c = false

/-- What a keyword is made of: two or more characters, all of them letters. -/
structure IsSpelled (w : List Char) : Prop where
  long : 2 ≤ w.length
  letters : ∀ c ∈ w, c.isAlpha = true

/-- A text is cut into parts between which stands nothing but characters that are no word
characters, at least one. -/
inductive IsCut : String → List String → Prop
  | whole (text : String) : IsCut text [text]
  | cut (part : String) {gap rest : String} {parts : List String} : gap ≠ "" →
      (∀ c ∈ gap.toList, isWord c = false) → IsCut rest parts →
      IsCut (part ++ gap ++ rest) (part :: parts)

variable {cs w a b gap : List Char} {c : Char}

/-! ## Runs -/

lemma runsFrom_append_cons (hc : isWord c = false) (run a b : List Char) :
    runsFrom run (a ++ c :: b) = runsFrom run a ++ runsFrom [] b := by
  induction a generalizing run with
  | nil =>
    rw [List.nil_append, runsFrom, runsFrom, hc]
    cases run <;> rfl
  | cons d a ih =>
    rw [List.cons_append, runsFrom, runsFrom]
    split
    · exact ih _
    · split
      · exact ih []
      · rw [ih [], List.cons_append]

/-- The scan reads a text apart on both sides of a character that is no word character. -/
lemma runs_append_cons (hc : isWord c = false) (a b : List Char) :
    runs (a ++ c :: b) = runs a ++ runs b := runsFrom_append_cons hc [] a b

lemma runsFrom_of_word (hcs : ∀ c ∈ cs, isWord c = true) (run : List Char) :
    runsFrom run cs = runsFrom (cs.reverse ++ run) [] := by
  induction cs generalizing run with
  | nil => rfl
  | cons c cs ih =>
    obtain ⟨hc, hcs⟩ := List.forall_mem_cons.1 hcs
    have hstep : runsFrom run (c :: cs) = runsFrom (c :: run) cs := by rw [runsFrom, if_pos hc]
    rw [hstep, ih hcs, List.reverse_cons, List.append_assoc, List.singleton_append]

lemma runs_of_word (hcs : ∀ c ∈ cs, isWord c = true) (hne : cs ≠ []) : runs cs = [cs] := by
  rw [runs, runsFrom_of_word hcs, List.append_nil, runsFrom, List.reverse_reverse,
    if_neg (by simpa)]

lemma IsRun.append_left (h : IsRun w a) (hc : isWord c = false) (b : List Char) :
    IsRun w (a ++ c :: b) := by
  obtain ⟨hne, hword, before, after, rfl, hbefore, hafter⟩ := h
  refine ⟨hne, hword, before, after ++ c :: b, by simp, hbefore, fun d hd => ?_⟩
  cases after with
  | nil => exact Option.some.inj hd ▸ hc
  | cons e after => exact hafter d hd

lemma IsRun.append_right (h : IsRun w b) (hc : isWord c = false) (a : List Char) :
    IsRun w (a ++ c :: b) := by
  obtain ⟨hne, hword, before, after, rfl, hbefore, hafter⟩ := h
  refine ⟨hne, hword, a ++ c :: before, after, by simp, fun d hd => ?_, hafter⟩
  rw [List.getLast?_append, List.getLast?_cons, Option.some_or, Option.mem_some] at hd
  cases hlast : before.getLast? with
  | none => simpa [hlast, ← hd] using hc
  | some e => simpa [hlast, ← hd] using hbefore e hlast

/-- A character that is none of a word cuts no run in two. -/
lemma isRun_append_cons (hc : isWord c = false) :
    IsRun w (a ++ c :: b) ↔ IsRun w a ∨ IsRun w b := by
  refine ⟨?_, fun h => h.elim (fun h => h.append_left hc b) fun h => h.append_right hc a⟩
  rintro ⟨hne, hword, before, after, heq, hbefore, hafter⟩
  have hmem : c ∉ w := fun h => by simp [hword c h] at hc
  rw [List.append_assoc] at heq
  rcases List.append_eq_append_iff.1 heq with ⟨gap, rfl, hgap⟩ | ⟨gap, rfl, hgap⟩
  · -- the run begins behind the cut
    cases gap with
    | nil =>
      obtain ⟨d, w, rfl⟩ := List.exists_cons_of_ne_nil hne
      obtain ⟨rfl, -⟩ := List.cons.inj hgap
      exact absurd List.mem_cons_self hmem
    | cons d gap =>
      obtain ⟨rfl, rfl⟩ := List.cons.inj hgap
      refine .inr ⟨hne, hword, gap, after, (List.append_assoc _ _ _).symm, fun d hd => ?_, hafter⟩
      refine hbefore d ?_
      rw [List.getLast?_append, List.getLast?_cons, Option.mem_def.1 hd]
      rfl
  · -- the run begins before the cut, and ends there
    rcases List.append_eq_append_iff.1 hgap with ⟨rest, rfl, hrest⟩ | ⟨rest, rfl, hrest⟩
    · refine .inl ⟨hne, hword, before, rest, (List.append_assoc _ _ _).symm, hbefore, ?_⟩
      intro d hd
      refine hafter d ?_
      rw [hrest, List.head?_append, Option.mem_def.1 hd]
      rfl
    · cases rest with
      | nil =>
        exact .inl ⟨hne, hword, before, [], by simp, hbefore, by simp⟩
      | cons d rest =>
        obtain ⟨rfl, -⟩ := List.cons.inj hrest
        exact absurd (by simp) hmem

lemma isRun_of_word (hcs : ∀ c ∈ cs, isWord c = true) (hne : cs ≠ []) : IsRun w cs ↔ w = cs := by
  constructor
  · rintro ⟨-, -, before, after, rfl, hbefore, hafter⟩
    have hfront : before = [] := by
      refine List.getLast?_eq_none_iff.1 (Option.eq_none_iff_forall_not_mem.2 fun c hc => ?_)
      have hword := hcs c (by simp [List.mem_of_getLast? hc])
      rw [hbefore c hc] at hword
      cases hword
    have hback : after = [] := by
      refine List.head?_eq_none_iff.1 (Option.eq_none_iff_forall_not_mem.2 fun c hc => ?_)
      have hword := hcs c (by simp [List.mem_of_head? hc])
      rw [hafter c hc] at hword
      cases hword
    simp [hfront, hback]
  · rintro rfl
    exact ⟨hne, hcs, [], [], by simp, by simp, by simp⟩

lemma not_isRun_nil : ¬ IsRun w [] := by
  rintro ⟨hne, -, before, after, heq, -, -⟩
  simp [eq_comm] at heq
  exact hne heq.2.1

/-- The scan finds the runs of a text. -/
lemma mem_runs : w ∈ runs cs ↔ IsRun w cs := by
  have hword {a : List Char} (ha : ∀ c ∈ a, isWord c = true) : w ∈ runs a ↔ IsRun w a := by
    by_cases hne : a = []
    · subst hne
      exact iff_of_false (by simp [runs, runsFrom]) not_isRun_nil
    · rw [runs_of_word ha hne, List.mem_singleton, isRun_of_word ha hne]
  induction hn : cs.length using Nat.strongRecOn generalizing cs with
  | ind n ih =>
    have hfront : ∀ c ∈ cs.takeWhile isWord, isWord c = true :=
      fun c hc => List.mem_takeWhile_imp hc
    have hcs : cs.takeWhile isWord ++ cs.dropWhile isWord = cs := List.takeWhile_append_dropWhile
    cases hback : cs.dropWhile isWord with
    | nil =>
      rw [hback, List.append_nil] at hcs
      rw [hcs] at hfront
      exact hword hfront
    | cons c b =>
      have hc := List.head?_dropWhile_not isWord cs
      rw [hback] at hc hcs
      have hc : isWord c = false := by simpa using hc
      have hlength : b.length < n := by
        rw [← hn, ← hcs, List.length_append, List.length_cons]
        omega
      have hrest : w ∈ runs b ↔ IsRun w b := ih b.length hlength rfl
      rw [← hcs, runs_append_cons hc, List.mem_append, isRun_append_cons hc, hword hfront, hrest]

/-! ## Keywords -/

lemma isKeyword_iff : isKeyword w = true ↔ IsSpelled w := by
  rw [isKeyword, Bool.and_eq_true, decide_eq_true_iff, List.all_eq_true]
  exact ⟨fun h => ⟨h.1, h.2⟩, fun h => ⟨h.long, h.letters⟩⟩

lemma mem_extract {stopwords : NameSet} {text word : String} :
    word ∈ (extract stopwords text).toList ↔ word ∉ stopwords.toList ∧
      ∃ w, IsRun w text.toList ∧ IsSpelled w ∧ word = String.ofList (w.map Char.toLower) := by
  have hstop : (!stopwords.contains word) = true ↔ word ∉ stopwords.toList := by
    rw [Bool.not_eq_true', ← Bool.not_eq_true, OrdSet.contains_iff]
  rw [extract, OrdSet.mem_ofList, List.mem_filter, List.mem_map, hstop, and_comm]
  refine and_congr_right fun _ => exists_congr fun w => ?_
  rw [List.mem_filter, mem_runs, isKeyword_iff, and_assoc, eq_comm]

lemma isRun_append (hgap : ∀ c ∈ gap, isWord c = false) (hne : gap ≠ []) :
    IsRun w (a ++ gap ++ b) ↔ IsRun w a ∨ IsRun w b := by
  induction gap generalizing a with
  | nil => exact absurd rfl hne
  | cons c gap ih =>
    obtain ⟨hc, hgap⟩ := List.forall_mem_cons.1 hgap
    rw [List.append_assoc, List.cons_append, isRun_append_cons hc]
    refine or_congr_right ?_
    by_cases hnil : gap = []
    · rw [hnil, List.nil_append]
    · have hrest := ih (a := []) hgap hnil
      rwa [List.nil_append, or_iff_right not_isRun_nil] at hrest

/-- A text has the keywords of its parts. -/
lemma extract_append {stopwords : NameSet} {a gap b : String} (hne : gap ≠ "")
    (hgap : ∀ c ∈ gap.toList, isWord c = false) :
    extract stopwords (a ++ gap ++ b) = (extract stopwords a).union (extract stopwords b) :=
  OrdSet.ext_mem fun word => by
    have hlist : gap.toList ≠ [] := fun h => hne (String.toList_eq_nil_iff.1 h)
    rw [OrdSet.mem_union, mem_extract, mem_extract, mem_extract, ← and_or_left, ← exists_or]
    refine and_congr_right fun _ => exists_congr fun w => ?_
    rw [String.toList_append, String.toList_append, isRun_append hgap hlist, or_and_right]

/-! ## Word boundaries -/

/-- Between two texts a word character meets something else. -/
def IsBoundary (before after : List Char) : Prop :=
  before.getLast?.any isWord ≠ after.head?.any isWord

/-- Two or more letters between word boundaries. -/
def spelledWord : Pattern := fun before word after =>
  IsBoundary before (word ++ after) ∧ IsSpelled word ∧ IsBoundary (before ++ word) after

lemma isWord_of_isAlpha (h : c.isAlpha = true) : isWord c = true := by
  have hlt : c.toNat < 128 := by
    have hletter : c.val ≤ 'Z'.val ∨ c.val ≤ 'z'.val :=
      (Bool.or_eq_true_iff.1 h).imp (fun h => (of_decide_eq_true h).2)
        fun h => of_decide_eq_true (Bool.and_eq_true_iff.1 h).2
    rcases hletter with h | h
    · exact Nat.lt_of_le_of_lt (UInt32.le_iff_toNat_le.1 h) (by decide)
    · exact Nat.lt_of_le_of_lt (UInt32.le_iff_toNat_le.1 h) (by decide)
  simp [isWord, hlt, isAsciiWord, Char.isAlphanum, h]

namespace IsSpelled

lemma ne_nil (h : IsSpelled w) : w ≠ [] := by
  rintro rfl
  exact absurd h.long (by simp)

lemma word (h : IsSpelled w) : ∀ c ∈ w, isWord c = true := fun c hc =>
  isWord_of_isAlpha (h.letters c hc)

end IsSpelled

lemma any_head?_append (hw : ∀ c ∈ w, isWord c = true) (hne : w ≠ []) (r : List Char) :
    (w ++ r).head?.any isWord = true := by
  obtain ⟨c, w, rfl⟩ := List.exists_cons_of_ne_nil hne
  exact hw c List.mem_cons_self

lemma any_getLast?_append (hw : ∀ c ∈ w, isWord c = true) (hne : w ≠ []) (r : List Char) :
    (r ++ w).getLast?.any isWord = true := by
  rw [List.getLast?_append_of_ne_nil _ hne, List.getLast?_eq_some_getLast hne]
  exact hw _ (List.getLast_mem hne)

/-- Word characters are on neither side of a match. -/
lemma spelledWord_iff {before after : List Char} : spelledWord before w after ↔
    IsSpelled w ∧ before.getLast?.any isWord = false ∧ after.head?.any isWord = false := by
  rw [spelledWord, and_left_comm]
  refine and_congr_right fun hw => ?_
  rw [IsBoundary, IsBoundary, any_head?_append hw.word hw.ne_nil,
    any_getLast?_append hw.word hw.ne_nil, ne_eq, Bool.not_eq_true, ne_comm, ne_eq,
      Bool.not_eq_true]

/-- The front of a text is told by where its word characters end. -/
lemma takeWhile_of_head? (hw : ∀ c ∈ w, isWord c = true) (hb : b.head?.any isWord = false) :
    (w ++ b).takeWhile isWord = w := by
  rw [List.takeWhile_append_of_pos hw]
  cases b with
  | nil => simp
  | cons c b =>
    rw [List.takeWhile_cons_of_neg (by simpa using hb), List.append_nil]

/-- The only match at the front of a run is the run. -/
lemma eq_of_atFront {before : List Char} (ha : ∀ c ∈ a, isWord c = true)
    (hb : b.head?.any isWord = false) (h : spelledWord.AtFront before (a ++ b) w) : w = a := by
  obtain ⟨after, heq, hmatch⟩ := h
  obtain ⟨hw, -, hafter⟩ := spelledWord_iff.1 hmatch
  rw [← takeWhile_of_head? hw.word hafter, ← heq, takeWhile_of_head? ha hb]

/-- A search goes past a run that is no keyword. -/
lemma passes_run {before : List Char} (ha : ∀ c ∈ a, isWord c = true)
    (hb : b.head?.any isWord = false) (hnot : ¬ IsSpelled a) : spelledWord.Passes before a b := by
  rintro p q w rfl hq h
  have hp : p = [] := by
    by_contra hne
    obtain ⟨after, -, hmatch⟩ := h
    have hlast := (spelledWord_iff.1 hmatch).2.1
    rw [any_getLast?_append (fun c hc => ha c (List.mem_append_left q hc)) hne] at hlast
    cases hlast
  subst hp
  obtain rfl := eq_of_atFront ha hb h
  obtain ⟨after, -, hmatch⟩ := h
  exact hnot (spelledWord_iff.1 hmatch).1

/-- A search goes past a character that is none of a word. -/
lemma passes_singleton {before : List Char} (hc : isWord c = false) (b : List Char) :
    spelledWord.Passes before [c] b := by
  rintro p q w hsplit hq ⟨after, heq, hmatch⟩
  obtain ⟨hw, -⟩ := spelledWord_iff.1 hmatch
  obtain ⟨d, w, rfl⟩ := List.exists_cons_of_ne_nil hw.ne_nil
  rcases List.append_eq_singleton_iff.1 hsplit.symm with ⟨rfl, rfl⟩ | ⟨-, rfl⟩
  · obtain ⟨rfl, -⟩ := List.cons.inj heq
    simp [hw.word c List.mem_cons_self] at hc
  · exact hq rfl

lemma filter_runs_of_word (ha : ∀ c ∈ a, isWord c = true) :
    (runs a).filter isKeyword = if isKeyword a then [a] else [] := by
  by_cases hne : a = []
  · subst hne
    rfl
  · rw [runs_of_word ha hne]
    cases h : isKeyword a <;> simp [h]

/-- A search finds the runs that are keywords, one after another. -/
lemma finds_runs {before : List Char} (hbefore : before.getLast?.any isWord = false) :
    spelledWord.Finds before cs ((runs cs).filter isKeyword) := by
  induction hn : cs.length using Nat.strongRecOn generalizing cs before with
  | ind n ih =>
    obtain ⟨a, b, rfl, ha, hb⟩ : ∃ a b, cs = a ++ b ∧ (∀ c ∈ a, isWord c = true) ∧
        b.head?.any isWord = false :=
      ⟨cs.takeWhile isWord, cs.dropWhile isWord, List.takeWhile_append_dropWhile.symm,
        fun c hc => List.mem_takeWhile_imp hc, by
          have hhead := List.head?_dropWhile_not isWord cs
          cases h : (cs.dropWhile isWord).head? with
          | none => rfl
          | some c => simpa [h] using hhead⟩
    obtain ⟨words, hwords, hruns⟩ : ∃ words, spelledWord.Finds (before ++ a) b words ∧
        (runs (a ++ b)).filter isKeyword = (runs a).filter isKeyword ++ words := by
      cases b with
      | nil => exact ⟨[], .nothing (Pattern.passes_nil _ _ _), by simp⟩
      | cons c b =>
        have hc : isWord c = false := by simpa using hb
        refine ⟨(runs b).filter isKeyword, ?_, by rw [runs_append_cons hc, List.filter_append]⟩
        have hrest : spelledWord.Finds (before ++ a ++ [c]) b ((runs b).filter isKeyword) :=
          ih b.length (by simp [← hn]; omega) (by simpa using hc) rfl
        exact hrest.skip (passes_singleton hc b)
    rw [hruns, filter_runs_of_word ha]
    split
    · rename_i hkeyword
      have hspelled := isKeyword_iff.1 hkeyword
      have hnone : spelledWord.Passes before [] (a ++ b) := Pattern.passes_nil _ _ _
      refine .word hnone hspelled.ne_nil ⟨?_, fun w hw => ?_⟩ ?_
      · rw [List.append_nil]
        exact ⟨b, rfl, spelledWord_iff.2 ⟨hspelled, hbefore, hb⟩⟩
      · obtain rfl := eq_of_atFront ha hb hw
        exact le_refl _
      · rwa [List.append_nil]
    · rename_i hkeyword
      exact hwords.skip (passes_run ha hb fun h => hkeyword (isKeyword_iff.2 h))

/-- **The search for keywords.** A search for two or more letters between word boundaries finds one
list of words in a text, and these in lower case are the keywords, without the stopwords. -/
theorem finds_keywords (stopwords : NameSet) (text : String) : ∃ words,
    (∀ found, spelledWord.Finds [] text.toList found ↔ found = words) ∧
    extract stopwords text = .ofList ((words.map fun w => String.ofList (w.map Char.toLower)).filter
      fun w => !stopwords.contains w) :=
  ⟨(runs text.toList).filter isKeyword,
    fun _ => ⟨fun h => h.unique (finds_runs rfl), fun h => h ▸ finds_runs rfl⟩, rfl⟩

end Keywords

namespace Package

open Keywords

variable {stopwords : NameSet}

lemma addKeywords_append (p : Package) {a gap b : String} (hne : gap ≠ "")
    (hgap : ∀ c ∈ gap.toList, isWord c = false) :
    p.addKeywords stopwords (a ++ gap ++ b) =
      (p.addKeywords stopwords a).addKeywords stopwords b := by
  rw [addKeywords, addKeywords, addKeywords, extract_append hne hgap, OrdSet.union_assoc]

lemma foldl_addKeywords {text : String} {parts : List String} (h : IsCut text parts) (p : Package) :
    parts.foldl (fun q part => q.addKeywords stopwords part) p = p.addKeywords stopwords text := by
  induction h generalizing p with
  | whole text => rfl
  | cut part hne hgap hrest ih => rw [List.foldl_cons, ih, addKeywords_append p hne hgap]

end Package

namespace Keywords

/-- **Keywords.** The keywords of a text are the maximal runs of word characters in it that are two
or more letters, in lower case and without the stopwords. Those of two texts with something else
between them are the keywords of both, and so a package has the same words whether a text is added
to it as a whole or in parts. -/
theorem extract_spelledRuns (stopwords : NameSet) :
    (∀ text word, word ∈ (extract stopwords text).toList ↔ word ∉ stopwords.toList ∧
      ∃ w, IsRun w text.toList ∧ IsSpelled w ∧ word = String.ofList (w.map Char.toLower)) ∧
    (∀ a gap b : String, gap ≠ "" → (∀ c ∈ gap.toList, isWord c = false) →
      extract stopwords (a ++ gap ++ b) = (extract stopwords a).union (extract stopwords b)) ∧
    ∀ (p : Package) (text : String) (parts : List String), IsCut text parts →
      parts.foldl (fun q part => q.addKeywords stopwords part) p = p.addKeywords stopwords text :=
  ⟨fun _ _ => mem_extract, fun _ _ _ => extract_append,
    fun p _ _ h => Package.foldl_addKeywords h p⟩

theorem extract_spelledRuns_theSale :
    ", " ≠ "" ∧ (∀ c ∈ ", ".toList, isWord c = false) ∧
    IsCut ("The sale_x2" ++ ", " ++ "Sale") ["The sale_x2", "Sale"] ∧
    extract (.singleton "the") ("The sale_x2" ++ ", " ++ "Sale") =
      (extract (.singleton "the") "The sale_x2").union (extract (.singleton "the") "Sale") ∧
    ["The sale_x2", "Sale"].foldl (fun q part => q.addKeywords (.singleton "the") part)
        (.ofPath ⟨"a"⟩) =
      (Package.ofPath ⟨"a"⟩).addKeywords (.singleton "the") ("The sale_x2" ++ ", " ++ "Sale") ∧
    (extract (.singleton "the") ("The sale_x2" ++ ", " ++ "Sale")).toList = ["sale"] := by
  obtain ⟨-, happend, hparts⟩ := extract_spelledRuns (.singleton "the")
  have hgap : ∀ c ∈ ", ".toList, isWord c = false :=
    List.forall_mem_cons.2 ⟨by decide, List.forall_mem_singleton.2 (by decide)⟩
  have hcut : IsCut ("The sale_x2" ++ ", " ++ "Sale") ["The sale_x2", "Sale"] :=
    .cut "The sale_x2" (by decide) hgap (.whole "Sale")
  exact ⟨by decide, hgap, hcut, happend _ _ _ (by decide) hgap, hparts _ _ _ hcut,
    by decide +kernel⟩

end Keywords

end AddonAtlas
