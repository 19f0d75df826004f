import AddonAtlas.Text.Classes
import Mathlib.Data.List.Lex

/-!
What a pattern prefers.

A pattern is a relation between a match and what stands before and behind it. Where a text matches
in several ways, the first part of a match is taken as long as possible, then the second one, and
so on. A search finds the first place where a match begins, takes the preferred match there, and
goes on behind it. So whatever the ways to match are, one match is preferred, and a search finds
one list of matches.
-/

namespace AddonAtlas.Text

/-- A match is preferred: each of its parts is as long as it can be behind the parts before it. -/
def IsPreferred {α : Type} (Matches : α → Prop) (lengths : α → List ℕ) (a : α) : Prop :=
  Matches a ∧ ∀ b, Matches b → lengths b ≤ lengths a

lemma IsPreferred.lengths_eq {α : Type} {Matches : α → Prop} {lengths : α → List ℕ} {a b : α}
    (ha : IsPreferred Matches lengths a) (hb : IsPreferred Matches lengths b) :
    lengths a = lengths b :=
  le_antisymm (hb.2 a ha.1) (ha.2 b hb.1)

/-- The first parts decide which match is longer, and behind equal ones the further parts. -/
lemma cons_le_cons_of {a b : ℕ} {l l' : List ℕ} (h : a < b ∨ a = b ∧ l ≤ l') :
    a :: l ≤ b :: l' := by
  rcases h with h | ⟨rfl, h⟩
  · exact le_of_lt (.rel h)
  · exact List.cons_le_cons a h

/-- A pattern of words: what stands before a word, the word, and what stands behind it. -/
abbrev Pattern := (before word after : List Char) → Prop

namespace Pattern

/-- A word at the front of a text matches. -/
def AtFront (P : Pattern) (before cs word : List Char) : Prop :=
  ∃ after, cs = word ++ after ∧ P before word after

/-- No word matches that begins in some part of a text, in front of the rest of it. -/
def Passes (P : Pattern) (before part rest : List Char) : Prop :=
  ∀ p q word, part = p ++ q → q ≠ [] → ¬ P.AtFront (before ++ p) (q ++ rest) word

/-- The words that a search finds in a text, behind what it has passed. -/
inductive Finds (P : Pattern) : (before cs : List Char) → List (List Char) → Prop
  | nothing {before cs : List Char} : P.Passes before cs [] → Finds P before cs []
  | word {before skip word after : List Char} {words : List (List Char)} :
      P.Passes before skip (word ++ after) → word ≠ [] →
      IsPreferred (P.AtFront (before ++ skip) (word ++ after)) (fun w => [w.length]) word →
      Finds P (before ++ skip ++ word) after words →
      Finds P before (skip ++ (word ++ after)) (word :: words)

variable {P : Pattern} {before cs part part' rest word after : List Char}
  {words words' : List (List Char)}

lemma passes_nil (P : Pattern) (before rest : List Char) : P.Passes before [] rest := by
  intro p q word hpart hq
  exact absurd (List.append_eq_nil_iff.1 hpart.symm).2 hq

lemma Passes.append (h : P.Passes before part (part' ++ rest))
    (h' : P.Passes (before ++ part) part' rest) : P.Passes before (part ++ part') rest := by
  intro p q word hparts hq
  rcases List.append_eq_append_iff.1 hparts with ⟨s, rfl, rfl⟩ | ⟨s, rfl, rfl⟩
  · rw [← List.append_assoc]
    exact h' s q word rfl hq
  · by_cases hs : s = []
    · subst hs
      simpa using h' [] part' word (by simp) (by simpa using hq)
    · rw [List.append_assoc]
      exact h p s word rfl hs

/-- A search goes past a part of a text in which no match begins. -/
lemma Finds.skip (h : P.Finds (before ++ part) cs words) (hpart : P.Passes before part cs) :
    P.Finds before (part ++ cs) words := by
  cases h with
  | nothing hcs => exact .nothing (Passes.append (by simpa using hpart) hcs)
  | @word _ skip word after words hskip hword hpreferred hrest =>
    rw [← List.append_assoc]
    refine .word (hpart.append hskip) hword ?_ ?_
    · simpa only [List.append_assoc] using hpreferred
    · simpa only [List.append_assoc] using hrest

/-- A match begins where a word was found, and so nothing passes it. -/
lemma not_passes (h : P.AtFront (before ++ part) (word ++ after) word) (hne : word ++ after ≠ []) :
    ¬ P.Passes before (part ++ (word ++ after)) [] := by
  intro hpasses
  exact hpasses part (word ++ after) word rfl hne (by rwa [List.append_nil])

/-- Two searches stop at one place. -/
lemma length_le_of_passes {skip skip' w w' r r' : List Char} (h : P.Passes before skip (w ++ r))
    (hword : P.AtFront (before ++ skip') (w' ++ r') w')
    (heq : skip ++ (w ++ r) = skip' ++ (w' ++ r')) : skip.length ≤ skip'.length := by
  by_contra hlt
  rcases List.append_eq_append_iff.1 heq with ⟨s, hs, -⟩ | ⟨s, rfl, hs⟩
  · exact hlt (hs ▸ by simp)
  · refine h skip' s w' rfl ?_ (hs ▸ hword)
    rintro rfl
    simp at hlt

/-- A search finds one list of words. -/
lemma Finds.unique (h : P.Finds before cs words) (h' : P.Finds before cs words') :
    words = words' := by
  induction h generalizing words' with
  | nothing hnone =>
    cases h' with
    | nothing => rfl
    | word _ hne hword => exact absurd hnone (not_passes hword.1 (by simp [hne]))
  | @word before skip w r words hskip hne hword _ ih =>
    generalize hcs : skip ++ (w ++ r) = cs at h'
    cases h' with
    | nothing hnone => exact absurd (hcs ▸ hnone) (not_passes hword.1 (by simp [hne]))
    | @word _ skip' w' r' words' hskip' _ hword' hrest' =>
      have hlength : skip.length = skip'.length :=
        Nat.le_antisymm (length_le_of_passes hskip hword'.1 hcs)
          (length_le_of_passes hskip' hword.1 hcs.symm)
      obtain ⟨rfl, hfront⟩ := List.append_inj hcs hlength
      rw [← hfront] at hword'
      have hlengths : w.length = w'.length := by simpa using hword.lengths_eq hword'
      obtain ⟨rfl, rfl⟩ := List.append_inj hfront hlengths
      rw [ih hrest']

end Pattern

end AddonAtlas.Text
