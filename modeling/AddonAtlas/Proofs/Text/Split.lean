import Mathlib.Data.List.TakeWhile
import Mathlib.Data.String.Basic
import Mathlib.Tactic.Lemma

/-!
Splitting a text at a character, read as splitting the list of its characters, and a text read off
its bytes.
-/

namespace AddonAtlas.Text

open String

lemma fromUTF8?_toByteArray (s : String) : String.fromUTF8? s.toByteArray = some s := by
  rw [String.fromUTF8?, dif_pos s.isValidUTF8]
  rfl

/-- The scan behind `String.splitOn`: `l` is behind the last separator, `m` is the piece that is
being collected, `r` is still to be read. -/
lemma splitOnAux_ofList (c : Char) (l m r : List Char) (acc : List String) :
    splitOnAux (ofList (l ++ m ++ r)) (ofList [c]) ⟨utf8Len l⟩ ⟨utf8Len l + utf8Len m⟩ 0 acc =
      acc.reverse ++ (List.splitOnPPrepend (· == c) r m.reverse).map ofList := by
  induction r generalizing l m acc with
  | nil =>
    have hpiece := extract_of_valid l m []
    have hend : Pos.Raw.atEnd (ofList (l ++ m ++ [])) ⟨utf8Len l + utf8Len m⟩ = true := by
      simp [atEnd_iff, rawEndPos_ofList, -ofList_append]
    rw [splitOnAux, if_pos hend, hpiece]
    simp
  | cons d r ih =>
    have hpiece := extract_of_valid l m (d :: r)
    have hget := get_of_valid (l ++ m) (d :: r)
    have hnext := next_of_valid (l ++ m) d r
    simp only [utf8Len_append, List.headD_cons] at hget hnext
    have hc : Pos.Raw.get (ofList [c]) 0 = c := get_of_valid [] [c]
    have hcnext : Pos.Raw.next (ofList [c]) 0 = ⟨c.utf8Size⟩ := by
      simpa using next_of_valid [] c []
    have hcend : Pos.Raw.atEnd (ofList [c]) ⟨c.utf8Size⟩ = true := by
      rw [atEnd_iff, rawEndPos_ofList, utf8Len_cons, utf8Len_nil, Nat.zero_add]
      exact Nat.le_refl _
    have hend : ¬ Pos.Raw.atEnd (ofList (l ++ m ++ d :: r)) ⟨utf8Len l + utf8Len m⟩ = true := by
      have := Char.utf8Size_pos d
      simp [atEnd_iff, rawEndPos_ofList, -ofList_append]
      omega
    rw [splitOnAux, if_neg hend, hget, hc, List.splitOnPPrepend_cons_eq_if]
    by_cases hdc : d = c
    · subst hdc
      have hback : Pos.Raw.unoffsetBy ⟨utf8Len l + utf8Len m + d.utf8Size⟩ ⟨d.utf8Size⟩ =
          ⟨utf8Len l + utf8Len m⟩ := by simp [Pos.Raw.unoffsetBy]
      have h := ih (l ++ m ++ [d]) [] (ofList m :: acc)
      simp only [beq_self_eq_true, if_true, hnext, hcnext, hcend, hback, hpiece]
      simpa [Nat.add_assoc, -ofList_append] using h
    · have hback : Pos.Raw.unoffsetBy ⟨utf8Len l + utf8Len m⟩ 0 = ⟨utf8Len l + utf8Len m⟩ := rfl
      have h := ih l (m ++ [d]) acc
      simp only [beq_iff_eq, hdc, if_false, hback, hnext]
      simpa [Nat.add_assoc, -ofList_append] using h

variable {s a : String} {c : Char}

lemma splitOn_eq (s : String) (c : Char) :
    s.splitOn (singleton c) = (s.toList.splitOn c).map ofList := by
  have h := splitOnAux_ofList c [] [] s.toList []
  simpa [String.splitOn, List.splitOn] using h

lemma splitOn_ne_nil (s : String) (c : Char) : s.splitOn (singleton c) ≠ [] := by
  rw [splitOn_eq]
  simp [List.splitOn_ne_nil]

/-- A separator between two texts splits there. -/
lemma splitOn_append (a b : String) (c : Char) :
    (a ++ singleton c ++ b).splitOn (singleton c) =
      a.splitOn (singleton c) ++ b.splitOn (singleton c) := by
  simp only [splitOn_eq, toList_append, toList_singleton, List.append_assoc, List.cons_append,
    List.nil_append, List.splitOn_append_cons_self, List.map_append]

lemma splitOn_of_not_mem (h : c ∉ s.toList) : s.splitOn (singleton c) = [s] := by
  rw [splitOn_eq, List.splitOn_eq_singleton h]
  simp

/-- Pieces without separators, put together, come apart again. -/
lemma splitOn_intercalate {l : List String} (hl : l ≠ []) (h : ∀ s ∈ l, c ∉ s.toList) :
    ((singleton c).intercalate l).splitOn (singleton c) = l := by
  rw [splitOn_eq, toList_intercalate, toList_singleton,
    List.splitOn_intercalate c (by simpa using h) (by simpa using hl), List.map_map]
  exact (List.map_congr_left fun s _ => ofList_toList).trans (List.map_id l)

/-- Pieces, put together with separators between them, give the text again. -/
lemma intercalate_splitOn (s : String) (c : Char) :
    (singleton c).intercalate (s.splitOn (singleton c)) = s := by
  have hid : toList ∘ ofList = id := funext fun _ => toList_ofList
  apply toList_inj.1
  rw [splitOn_eq, toList_intercalate, List.map_map, hid, List.map_id, toList_singleton]
  exact List.intercalate_splitOn c

/-- The pieces of a list lack the separator and have no other elements than the list. -/
lemma pieces_of_splitOn {l cs : List Char} (h : l ∈ cs.splitOn c) : c ∉ l ∧ l ⊆ cs := by
  induction cs generalizing l with
  | nil => simp_all [List.splitOn_nil]
  | cons d r ih =>
    rw [List.splitOn_cons_eq_if_modifyHead] at h
    obtain ⟨first, rest, hr⟩ := List.exists_cons_of_ne_nil (List.splitOn_ne_nil c r)
    rw [hr] at h ih
    by_cases hd : d = c
    · simp only [hd, beq_self_eq_true, if_true, List.mem_cons] at h
      rcases h with rfl | h
      · exact ⟨List.not_mem_nil, List.nil_subset _⟩
      · have hl := ih (List.mem_cons.2 h)
        exact ⟨hl.1, List.subset_cons_of_subset d hl.2⟩
    · simp only [beq_iff_eq, hd, if_false, List.modifyHead_cons, List.mem_cons] at h
      rcases h with rfl | h
      · have hl := ih List.mem_cons_self
        exact ⟨by simp [hl.1, Ne.symm hd], List.cons_subset_cons d hl.2⟩
      · have hl := ih (List.mem_cons_of_mem _ h)
        exact ⟨hl.1, List.subset_cons_of_subset d hl.2⟩

lemma pieces_of_splitOn_string (h : s ∈ a.splitOn (singleton c)) :
    c ∉ s.toList ∧ s.toList ⊆ a.toList := by
  rw [splitOn_eq] at h
  obtain ⟨l, hl, rfl⟩ := List.mem_map.1 h
  rw [toList_ofList]
  exact pieces_of_splitOn hl

/-! ## The first separator -/

variable {l m r t : List Char}

lemma takeWhile_of_not_mem (h : c ∉ l) : l.takeWhile (· ≠ c) = l :=
  List.takeWhile_eq_self_iff.2 fun d hd => by simpa using ne_of_mem_of_not_mem hd h

lemma takeWhile_append_cons (h : c ∉ l) (r : List Char) : (l ++ c :: r).takeWhile (· ≠ c) = l := by
  rw [List.takeWhile_append_of_pos fun d hd => by simpa using ne_of_mem_of_not_mem hd h,
    List.takeWhile_cons_of_neg (by simp), List.append_nil]

/-- A text tells what stands before its first separator and what stands behind it. -/
lemma eq_of_append_cons (hl : c ∉ l) (hm : c ∉ m) (h : l ++ c :: r = m ++ c :: t) :
    l = m ∧ r = t := by
  obtain rfl : l = m := by
    rw [← takeWhile_append_cons hl r, h, takeWhile_append_cons hm]
  exact ⟨rfl, (List.cons.inj (List.append_cancel_left h)).2⟩

end AddonAtlas.Text
