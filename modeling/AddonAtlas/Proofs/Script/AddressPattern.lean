import AddonAtlas.Proofs.Script.StaticTrees
import AddonAtlas.Proofs.Text.Pattern

/-!
Addresses as a pattern.

The front of a text may match as a slash, a package, directories, a static tree and a place, where
the slash and the directories may be left out and no part has blanks. In the preferred match the
package takes all that it can, so the static tree is the last one and no directories are left over.
This is how an address is split.
-/

namespace AddonAtlas.Script

open Text

/-- The parts of an address at the front of a text, and the rest of the text. -/
structure AddressParts where
  slash : List Char
  package : List Char
  /-- Directories above the static tree, with a slash behind them. -/
  directories : List Char
  tree : StaticTree
  place : List Char
  rest : List Char

namespace AddressParts

/-- A text matches by these parts. -/
structure Matches (cs : List Char) (m : AddressParts) : Prop where
  text : cs = m.slash ++ (m.package ++ '/' :: m.directories ++
    (m.tree.directory.toList.tail ++ (m.place ++ m.rest)))
  slash : m.slash = [] ∨ m.slash = ['/']
  package : m.package ≠ []
  directories : m.directories = [] ∨ ∃ d, m.directories = d ++ ['/']
  place : ∃ r, m.place = '/' :: r
  blankless : ∀ c ∈ m.package ++ m.directories ++ m.place, isBlank c = false

/-- The lengths of the parts, in the order in which they are chosen. -/
def lengths (m : AddressParts) : List ℕ :=
  [m.slash.length, m.package.length, m.directories.length, m.place.length]

/-- What stands between the slash and the static tree. -/
def before (m : AddressParts) : List Char := (m.package ++ '/' :: m.directories).dropLast

variable {cs package place r : List Char} {t : StaticTree} {m m' : AddressParts}

lemma length_before (m : AddressParts) :
    m.before.length = m.package.length + m.directories.length := by
  rw [before, List.length_dropLast, List.length_append, List.length_cons]
  omega

namespace Matches

lemma before_append (h : Matches cs m) : m.before ++ ['/'] = m.package ++ '/' :: m.directories := by
  rw [before]
  rcases h.directories with hd | ⟨d, hd⟩
  · rw [hd, List.dropLast_concat]
  · have hassoc : m.package ++ '/' :: (d ++ ['/']) = m.package ++ '/' :: d ++ ['/'] := by simp
    rw [hd, hassoc, List.dropLast_concat]

lemma before_ne_nil (h : Matches cs m) : m.before ≠ [] := by
  have hpos := List.length_pos_iff.2 h.package
  rw [← List.length_pos_iff, length_before]
  omega

/-- The front of a matching text has a static tree behind the slash. -/
lemma takeWhile_eq (h : Matches cs m) : ∃ r, cs.takeWhile (fun c => !isBlank c) =
    m.slash ++ (m.before ++ m.tree.directory.toList ++ '/' :: r) ∧
      '/' :: r = m.place ++ m.rest.takeWhile fun c => !isBlank c := by
  obtain ⟨p, hp⟩ := h.place
  obtain ⟨name, hname⟩ := head_directory m.tree
  have hfront : m.slash ++ (m.package ++ '/' :: m.directories ++
      (m.tree.directory.toList.tail ++ (m.place ++ m.rest))) =
      (m.slash ++ (m.before ++ m.tree.directory.toList ++ m.place)) ++ m.rest := by
    rw [← h.before_append, hname]
    simp
  have hall : ∀ c ∈ m.slash ++ (m.before ++ m.tree.directory.toList ++ m.place),
      (!isBlank c) = true := by
    intro c hc
    rw [Bool.not_eq_true']
    rw [List.mem_append, List.mem_append, List.mem_append] at hc
    rcases hc with hc | (hc | hc) | hc
    · rcases h.slash with hs | hs <;> rw [hs] at hc
      · cases hc
      · exact List.mem_singleton.1 hc ▸ by decide
    · have hmem : c ∈ m.package ++ '/' :: m.directories := List.dropLast_subset _ hc
      rw [List.mem_append, List.mem_cons] at hmem
      rcases hmem with hmem | rfl | hmem
      · exact h.blankless c (by simp [hmem])
      · decide
      · exact h.blankless c (by simp [hmem])
    · exact StaticAddress.isBlank_directory m.tree c hc
    · exact h.blankless c (by simp [hc])
  refine ⟨p ++ m.rest.takeWhile fun c => !isBlank c, ?_, by rw [hp]; rfl⟩
  rw [h.text, hfront, List.takeWhile_append_of_pos hall, hp]
  simp

end Matches

/-- A text with a static tree behind something else is split, no earlier than there. -/
lemma exists_split? {before : List Char} (hne : before ≠ []) (t : StaticTree) (r : List Char) :
    ∃ package u place,
      split? (before ++ t.directory.toList ++ '/' :: r) = some (package, u, place) ∧
      before.length ≤ package.length := by
  obtain ⟨c, before, rfl⟩ := List.exists_cons_of_ne_nil hne
  obtain ⟨front, u, r', hcut, hlast⟩ := exists_last (hasTree_directory t before r)
  refine ⟨c :: front, u, '/' :: r', ?_, ?_⟩
  · rw [List.cons_append, List.cons_append, hcut]
    exact split?_directory (List.cons_ne_nil c front) hlast
  · by_contra hlt
    rw [List.append_assoc, List.append_assoc] at hcut
    rcases List.append_eq_append_iff.1 hcut with ⟨s, rfl, -⟩ | ⟨s, rfl, hs⟩
    · simp at hlt
    · cases s with
      | nil => simp at hlt
      | cons d s =>
        rw [hs, List.cons_append, List.tail_cons, ← List.append_assoc] at hlast
        exact hlast (hasTree_directory t s r)

lemma directory_append_inj {t u : StaticTree} {p q : List Char}
    (h : t.directory.toList ++ '/' :: p = u.directory.toList ++ '/' :: q) : t = u ∧ p = q := by
  cases t <;> cases u <;> simp [StaticTree.directory] at h ⊢
  all_goals exact h

/-- What is behind the slash of a match is split, no earlier than at the tree of the match. -/
lemma Matches.exists_split? (h : Matches cs m)
    (hfront : cs.takeWhile (fun c => !isBlank c) = m.slash ++ r) : ∃ package u place,
      split? r = some (package, u, place) ∧ m.before.length ≤ package.length := by
  obtain ⟨p, htake, -⟩ := h.takeWhile_eq
  obtain rfl := List.append_cancel_left (hfront.symm.trans htake)
  exact AddressParts.exists_split? h.before_ne_nil m.tree p

/-- A split behind a slash is the preferred one of the matches with this slash. -/
lemma exists_preferred {slash : List Char} (hslash : slash = [] ∨ slash = ['/'])
    (hfront : cs.takeWhile (fun c => !isBlank c) = slash ++ r)
    (h : split? r = some (package, t, place)) :
    ∃ m, IsPreferred (fun m => Matches cs m ∧ m.slash = slash) lengths m ∧
      m.package = package ∧ m.tree = t ∧ m.place = place := by
  obtain ⟨rfl, hne, p, rfl⟩ := split?_eq_some h
  obtain ⟨name, hname⟩ := head_directory t
  refine ⟨⟨slash, package, [], t, '/' :: p, cs.dropWhile fun c => !isBlank c⟩,
    ⟨⟨⟨?_, hslash, hne, .inl rfl, ⟨p, rfl⟩, fun c hc => ?_⟩, rfl⟩, fun m' hm' => ?_⟩, rfl, rfl, rfl⟩
  · have hcs := List.takeWhile_append_dropWhile (p := fun c => !isBlank c) (l := cs)
    rw [hfront, hname] at hcs
    rw [hname]
    simpa using hcs.symm
  · have hmem : c ∈ cs.takeWhile fun c => !isBlank c := by
      rw [hfront]
      rw [List.append_nil, List.mem_append] at hc
      rcases hc with hc | hc <;> simp [hc]
    simpa using List.mem_takeWhile_imp hmem
  · obtain ⟨hm', rfl⟩ := hm'
    obtain ⟨package', u, place', hsplit, hle⟩ := hm'.exists_split? hfront
    obtain ⟨rfl, -⟩ := Prod.mk.inj (Option.some.inj (h.symm.trans hsplit))
    rw [length_before] at hle
    refine cons_le_cons_of (.inr ⟨rfl, cons_le_cons_of ?_⟩)
    rcases Nat.lt_or_ge m'.package.length package.length with hlt | hge
    · exact .inl hlt
    · -- then nothing is left for directories, and both matches have one static tree
      obtain ⟨r', htake, hplace⟩ := hm'.takeWhile_eq
      have htree := List.append_cancel_left (hfront.symm.trans htake)
      have hlength : package.length = m'.before.length := by
        rw [length_before]
        omega
      rw [List.append_assoc, List.append_assoc] at htree
      obtain ⟨-, htrees⟩ := List.append_inj htree hlength
      obtain ⟨-, rfl⟩ := directory_append_inj htrees
      have hshort : m'.place.length ≤ ('/' :: p).length := by
        rw [hplace, List.length_append]
        omega
      have hpackage : m'.package.length = package.length := by
        rw [length_before] at hlength
        omega
      refine .inr ⟨hpackage, cons_le_cons_of (.inr ⟨?_, cons_le_cons_of ?_⟩)⟩
      · rw [List.length_nil]
        omega
      · rcases Nat.lt_or_eq_of_le hshort with hshort | hshort
        · exact .inl hshort
        · exact .inr ⟨hshort, le_refl _⟩

/-- No two matches are preferred. -/
lemma eq_of_isPreferred (h : IsPreferred (Matches cs) lengths m)
    (h' : IsPreferred (Matches cs) lengths m') : m = m' := by
  have hlengths := h.lengths_eq h'
  simp only [lengths, List.cons.injEq] at hlengths
  obtain ⟨hslash, hpackage, hdirectories, hplace, -⟩ := hlengths
  have htext := h.1.text.symm.trans h'.1.text
  obtain ⟨p, hp⟩ := h.1.place
  obtain ⟨p', hp'⟩ := h'.1.place
  obtain ⟨slash, package, directories, t, place, rest⟩ := m
  obtain ⟨slash', package', directories', t', place', rest'⟩ := m'
  dsimp only at hp hp' hslash hpackage hdirectories hplace htext
  have hlength :
      (package ++ '/' :: directories).length = (package' ++ '/' :: directories').length := by
    simp [hpackage, hdirectories]
  obtain ⟨rfl, hbehind⟩ := List.append_inj htext hslash
  obtain ⟨hfront, hback⟩ := List.append_inj hbehind hlength
  obtain ⟨rfl, hgap⟩ := List.append_inj hfront hpackage
  obtain rfl := (List.cons.inj hgap).2
  have htrees : t.directory.toList ++ '/' :: (p ++ rest) =
      t'.directory.toList ++ '/' :: (p' ++ rest') := by
    obtain ⟨name, hname⟩ := head_directory t
    obtain ⟨name', hname'⟩ := head_directory t'
    rw [hname, hname', hp, hp'] at hback
    rw [hname, hname']
    exact congrArg ('/' :: ·) hback
  obtain ⟨rfl, htails⟩ := directory_append_inj htrees
  obtain ⟨rfl, rfl⟩ := List.append_inj htails (by simpa [hp, hp'] using hplace)
  rw [hp, hp']

/-- A match with a slash is preferred to one without. -/
lemma isPreferred_of_slash
    (h : IsPreferred (fun m => Matches cs m ∧ m.slash = ['/']) lengths m) :
    IsPreferred (Matches cs) lengths m := by
  refine ⟨h.1.1, fun m' hm' => ?_⟩
  rcases hm'.slash with hs | hs
  · rw [lengths, lengths, hs, h.1.2]
    exact cons_le_cons_of (.inl Nat.one_pos)
  · exact h.2 m' ⟨hm', hs⟩

lemma isPreferred_of_forall (h : IsPreferred (fun m => Matches cs m ∧ m.slash = []) lengths m)
    (hnone : ∀ m', Matches cs m' → m'.slash ≠ ['/']) : IsPreferred (Matches cs) lengths m :=
  ⟨h.1.1, fun m' hm' => h.2 m' ⟨hm', hm'.slash.resolve_right (hnone m' hm')⟩⟩

/-- An address with a match is split. -/
lemma Matches.exists_address? (h : Matches cs m) :
    ∃ x, address? (cs.takeWhile fun c => !isBlank c) = some x := by
  obtain ⟨r, htake, -⟩ := h.takeWhile_eq
  obtain ⟨package, u, place, hsplit, -⟩ := h.exists_split? htake
  rw [htake]
  rcases h.slash with hs | hs <;> rw [hs]
  · rw [List.nil_append]
    unfold address?
    split
    · rw [hsplit]
      exact ⟨_, Option.or_some⟩
    · exact ⟨_, hsplit⟩
  · exact ⟨_, address?_slash hsplit⟩

lemma exists_isPreferred
    (h : address? (cs.takeWhile fun c => !isBlank c) = some (package, t, place)) :
    ∃ m, IsPreferred (Matches cs) lengths m ∧ m.package = package ∧ m.tree = t ∧
      m.place = place := by
  have hwhole (h : split? (cs.takeWhile fun c => !isBlank c) = some (package, t, place))
      (hnone : ∀ m, Matches cs m → m.slash ≠ ['/']) : ∃ m, IsPreferred (Matches cs) lengths m ∧
        m.package = package ∧ m.tree = t ∧ m.place = place := by
    obtain ⟨m, hm, hparts⟩ := exists_preferred (.inl rfl) (List.nil_append _).symm h
    exact ⟨m, isPreferred_of_forall hm hnone, hparts⟩
  generalize hfront : cs.takeWhile (fun c => !isBlank c) = front at h hwhole
  unfold address? at h
  split at h
  · rename_i r
    rcases Option.or_eq_some_iff.1 h with h | ⟨hnone, h⟩
    · obtain ⟨m, hm, hparts⟩ := exists_preferred (.inr rfl) hfront h
      exact ⟨m, isPreferred_of_slash hm, hparts⟩
    · refine hwhole h fun m hm hs => ?_
      obtain ⟨_, _, _, hsplit, -⟩ := hm.exists_split? (r := r) (by rw [hfront, hs]; rfl)
      rw [hnone] at hsplit
      cases hsplit
  · rename_i hslash
    refine hwhole h fun m hm hs => ?_
    obtain ⟨r, htake, -⟩ := hm.takeWhile_eq
    rw [hs, hfront] at htake
    exact hslash _ htake

end AddressParts

open AddressParts in
/-- **The split of an address.** The front of a text is split into a package, a static tree and a
place just as its preferred match says, and it is not split if nothing matches. -/
theorem address?_eq_some_iff_preferred {cs package place : List Char} {t : StaticTree} :
    address? (cs.takeWhile fun c => !isBlank c) = some (package, t, place) ↔
      ∃ m, IsPreferred (Matches cs) lengths m ∧ m.package = package ∧ m.tree = t ∧
        m.place = place := by
  refine ⟨exists_isPreferred, ?_⟩
  rintro ⟨m, hm, rfl, rfl, rfl⟩
  obtain ⟨⟨package, t, place⟩, h⟩ := hm.1.exists_address?
  obtain ⟨m', hm', rfl, rfl, rfl⟩ := exists_isPreferred h
  rw [h, eq_of_isPreferred hm hm']

end AddonAtlas.Script
