import AddonAtlas.Proofs.Script.ModulePaths
import Mathlib.Data.List.Basic
import Mathlib.Data.List.DropRight

/-!
Addresses below static trees.

An address that has a static tree is cut at the last one. What stands before it is the package, and
what stands behind it is a place, which loses the name of an index and then an extension. An
address without a static tree is left as it is.
-/

namespace AddonAtlas.Script

open Text

/-- Whether a static tree begins somewhere in a text. -/
def HasTree (cs : List Char) : Prop := ∃ t : StaticTree, (t.directory ++ "/").toList <:+: cs

/-- A place without the name of an index as its last part. -/
def withoutIndex (place : List Char) : List Char :=
  if "/index.js".toList <:+ place then place.rdrop "/index.js".length
  else if "/index".toList <:+ place then place.rdrop "/index".length
  else place

/-- A place without the extension of scripts at its end. -/
def withoutExtension (place : List Char) : List Char :=
  if ".js".toList <:+ place then place.rdrop ".js".length else place

/-- An address below a static tree of a package, perhaps with a slash in front. -/
def addressBelow (slash : Bool) (package : String) (t : StaticTree) (rest : String) : String :=
  (if slash then "/" else "") ++ package ++ t.directory ++ "/" ++ rest

/-- An address below the last of its static trees. -/
structure StaticAddress where
  slash : Bool
  package : String
  tree : StaticTree
  rest : String
  named : package ≠ ""
  relative : package.toList.head? ≠ some '/'
  blankless : ∀ c ∈ package.toList ++ rest.toList, isBlank c = false
  last : ¬ HasTree (tree.directory.toList ++ '/' :: rest.toList).tail

namespace StaticAddress

def written (a : StaticAddress) : String :=
  addressBelow a.slash a.package a.tree a.rest

/-- What is left of the place behind the static tree. -/
def path (a : StaticAddress) : String :=
  String.ofList (withoutExtension (withoutIndex ('/' :: a.rest.toList)))

end StaticAddress

variable {cs before place r stem package rest : List Char} {t : StaticTree} {c : Char}

/-! ## The last static tree -/

lemma head_directory (t : StaticTree) : ∃ name, t.directory.toList = '/' :: name := by
  cases t <;> exact ⟨_, rfl⟩

lemma toList_directory_slash (t : StaticTree) (r : List Char) :
    (t.directory ++ "/").toList ++ r = t.directory.toList ++ '/' :: r := by
  rw [String.toList_append, List.append_assoc]
  rfl

lemma hasTree_directory (t : StaticTree) (before r : List Char) :
    HasTree (before ++ t.directory.toList ++ '/' :: r) :=
  ⟨t, before, r, by rw [List.append_assoc, List.append_assoc, toList_directory_slash]⟩

lemma not_hasTree_nil : ¬ HasTree [] := by
  rintro ⟨t, h⟩
  cases t <;> cases List.infix_nil.1 h

lemma HasTree.mono {l : List Char} (h : HasTree cs) (hl : cs <:+: l) : HasTree l :=
  h.imp fun _ ht => ht.trans hl

/-- A static tree is found where one stands, and it is the one that stands there. -/
lemma treeAt?_directory (t : StaticTree) (r : List Char) :
    treeAt? (t.directory.toList ++ '/' :: r) = some (t, '/' :: r) := by
  cases t <;> rfl

lemma treeAt?_eq_none_iff :
    treeAt? cs = none ↔ ∀ t : StaticTree, ¬ (t.directory ++ "/").toList <+: cs := by
  rw [treeAt?, List.findSome?_eq_none_iff]
  constructor
  · intro h t hprefix
    have hfound := h t (by cases t <;> decide)
    rw [if_pos (List.isPrefixOf_iff_prefix.2 hprefix)] at hfound
    cases hfound
  · intro h t _
    exact if_neg fun hprefix => h t (List.isPrefixOf_iff_prefix.1 hprefix)

lemma lastTree?_eq_none_iff : lastTree? cs = none ↔ ¬ HasTree cs := by
  induction cs with
  | nil => exact iff_of_true rfl not_hasTree_nil
  | cons c cs ih =>
    have hcons : HasTree (c :: cs) ↔
        (∃ t : StaticTree, (t.directory ++ "/").toList <+: c :: cs) ∨ HasTree cs := by
      simp only [HasTree, List.infix_cons_iff, exists_or]
    rw [lastTree?, hcons, not_or, not_exists, ← treeAt?_eq_none_iff, ← ih]
    cases lastTree? cs <;> simp

lemma lastTree?_directory (h : ¬ HasTree (t.directory.toList ++ '/' :: r).tail) :
    lastTree? (before ++ t.directory.toList ++ '/' :: r) = some (before, t, '/' :: r) := by
  induction before with
  | nil =>
    obtain ⟨name, hname⟩ := head_directory t
    have hhere := treeAt?_directory t r
    rw [hname, List.cons_append] at h hhere
    rw [List.tail_cons] at h
    rw [List.nil_append, hname, List.cons_append, lastTree?, lastTree?_eq_none_iff.2 h, hhere]
    rfl
  | cons c before ih => rw [List.cons_append, List.cons_append, lastTree?, ih]

/-- A text with a static tree has a last one. -/
lemma exists_last (h : HasTree cs) : ∃ (before : List Char) (t : StaticTree) (r : List Char),
    cs = before ++ t.directory.toList ++ '/' :: r ∧
      ¬ HasTree (t.directory.toList ++ '/' :: r).tail := by
  induction cs with
  | nil => exact absurd h not_hasTree_nil
  | cons c cs ih =>
    by_cases hrest : HasTree cs
    · obtain ⟨before, t, r, rfl, hlast⟩ := ih hrest
      exact ⟨c :: before, t, r, rfl, hlast⟩
    · obtain ⟨t, ht⟩ := h
      obtain ⟨r, hr⟩ := (List.infix_cons_iff.1 ht).resolve_right fun ht => hrest ⟨t, ht⟩
      rw [toList_directory_slash] at hr
      exact ⟨[], t, r, hr.symm, by rw [hr]; exact hrest⟩

lemma split?_directory (hne : package ≠ []) (h : ¬ HasTree (t.directory.toList ++ '/' :: r).tail) :
    split? (package ++ t.directory.toList ++ '/' :: r) = some (package, t, '/' :: r) := by
  obtain ⟨c, package, rfl⟩ := List.exists_cons_of_ne_nil hne
  rw [List.cons_append, List.cons_append, split?, lastTree?_directory h]
  rfl

lemma split?_eq_none (h : ¬ HasTree cs) : split? cs = none := by
  cases cs with
  | nil => rfl
  | cons c cs =>
    have hrest : ¬ HasTree cs := fun hcs => h (hcs.mono (List.suffix_cons c cs).isInfix)
    rw [split?, lastTree?_eq_none_iff.2 hrest]
    rfl

lemma address?_eq_none (h : ¬ HasTree cs) : address? cs = none := by
  unfold address?
  split
  · rename_i r
    have hrest : ¬ HasTree r := fun hr => h (hr.mono (List.suffix_cons _ r).isInfix)
    rw [split?_eq_none hrest, split?_eq_none h]
    rfl
  · exact split?_eq_none h

lemma address?_slash (h : split? cs = some (package, t, place)) :
    address? ('/' :: cs) = some (package, t, place) := by
  rw [address?, h]
  rfl

lemma address?_of_head? (h : cs.head? ≠ some '/') : address? cs = split? cs := by
  unfold address?
  split
  · exact absurd rfl h
  · rfl

/-! ## Places -/

lemma rdrop_append (l : List Char) (tail : String) : (l ++ tail.toList).rdrop tail.length = l := by
  rw [List.rdrop, List.length_append, String.length_toList, Nat.add_sub_cancel, List.take_left]

lemma withoutExtension_eq (place : List Char) :
    (if endsWith place ".js" then place.take (place.length - 3) else place) =
      withoutExtension place := by
  simp only [endsWith_iff]
  rfl

lemma withoutIndex_eq (place : List Char) :
    (if endsWith place "/index.js" || endsWith place "/index" then withoutLast place else place) =
      withoutIndex place := by
  simp only [Bool.or_eq_true, endsWith_iff]
  unfold withoutIndex
  by_cases hscript : "/index.js".toList <:+ place
  · obtain ⟨x, rfl⟩ := hscript
    rw [if_pos (Or.inl (List.suffix_append x _)), if_pos (List.suffix_append x _), rdrop_append]
    exact withoutLast_append (by decide) x
  · by_cases hplain : "/index".toList <:+ place
    · rw [if_pos (Or.inr hplain), if_neg hscript, if_pos hplain]
      obtain ⟨x, rfl⟩ := hplain
      rw [rdrop_append]
      exact withoutLast_append (by decide) x
    · rw [if_neg (not_or.2 ⟨hscript, hplain⟩), if_neg hscript, if_neg hplain]

lemma modulePlace_eq (place : List Char) :
    modulePlace place = withoutExtension (withoutIndex place) := by
  rw [← withoutExtension_eq, ← withoutIndex_eq]
  rfl

/-! ## Addresses -/

lemma toList_addressBelow (slash : Bool) (package : String) (t : StaticTree) (rest : String) :
    (addressBelow slash package t rest).toList = (if slash then ['/'] else []) ++
      (package.toList ++ t.directory.toList ++ '/' :: rest.toList) := by
  rw [addressBelow, String.toList_append, String.toList_append, String.toList_append,
    String.toList_append]
  cases slash <;> simp

namespace StaticAddress

lemma isBlank_directory (t : StaticTree) : ∀ c ∈ t.directory.toList, isBlank c = false := by
  cases t <;> simp [StaticTree.directory, isBlank]

lemma isBlank_written (a : StaticAddress) : ∀ c ∈ a.written.toList, isBlank c = false := by
  intro c hc
  rw [written, toList_addressBelow, List.mem_append, List.mem_append, List.mem_append,
    List.mem_cons] at hc
  rcases hc with hc | (hc | hc) | rfl | hc
  · split at hc
    · exact List.mem_singleton.1 hc ▸ by decide
    · cases hc
  · exact a.blankless c (List.mem_append_left _ hc)
  · exact isBlank_directory a.tree c hc
  · decide
  · exact a.blankless c (List.mem_append_right _ hc)

lemma address?_written (a : StaticAddress) :
    address? a.written.toList = some (a.package.toList, a.tree, '/' :: a.rest.toList) := by
  have hne : a.package.toList ≠ [] := fun h => a.named (String.toList_eq_nil_iff.1 h)
  have hsplit := split?_directory hne a.last
  rw [written, toList_addressBelow]
  split
  · exact address?_slash hsplit
  · rw [List.nil_append, address?_of_head?, hsplit]
    rw [List.head?_append_of_ne_nil _ (by simp [hne]), List.head?_append_of_ne_nil _ hne]
    exact a.relative

lemma modulePath_written (a : StaticAddress) :
    modulePath a.written = "@" ++ a.package ++ a.tree.gap ++ a.path := by
  have hwhole : a.written.toList.takeWhile (fun c => !isBlank c) = a.written.toList :=
    List.takeWhile_eq_self_iff.2 fun c hc => by simp [a.isBlank_written c hc]
  rw [modulePath, hwhole, address?_written]
  dsimp only
  rw [modulePlace_eq, String.ofList_toList]
  cases a.tree <;> rfl

/-- An address is cut at its last static tree, whichever of its trees is named. -/
lemma exists_written (slash : Bool) {package rest : String} (t : StaticTree) (hne : package ≠ "")
    (hhead : package.toList.head? ≠ some '/')
    (hblank : ∀ c ∈ package.toList ++ rest.toList, isBlank c = false) :
    ∃ a : StaticAddress, a.written = addressBelow slash package t rest := by
  have hpackage : package.toList ≠ [] := fun h => hne (String.toList_eq_nil_iff.1 h)
  obtain ⟨before, u, r, hcut, hlast⟩ := exists_last (hasTree_directory t package.toList rest.toList)
  -- the first character is no slash, so a tree cannot begin there
  have hfirst : (before ++ u.directory.toList ++ '/' :: r).head? ≠ some '/' := by
    rw [← hcut, List.append_assoc, List.head?_append_of_ne_nil _ hpackage]
    exact hhead
  have hbefore : before ≠ [] := by
    rintro rfl
    obtain ⟨name, hname⟩ := head_directory u
    rw [hname] at hfirst
    exact hfirst rfl
  have hall : ∀ c ∈ before ++ r, isBlank c = false := by
    intro c hc
    have hmem : c ∈ package.toList ++ t.directory.toList ++ '/' :: rest.toList := by
      rw [hcut]
      rcases List.mem_append.1 hc with hc | hc <;> simp [hc]
    rw [List.mem_append, List.mem_append, List.mem_cons] at hmem
    rcases hmem with (hmem | hmem) | rfl | hmem
    · exact hblank c (List.mem_append_left _ hmem)
    · exact isBlank_directory t c hmem
    · decide
    · exact hblank c (List.mem_append_right _ hmem)
  have hrelative : before.head? ≠ some '/' := by
    rwa [List.append_assoc, List.head?_append_of_ne_nil _ hbefore] at hfirst
  have hwritten : addressBelow slash (String.ofList before) u (String.ofList r) =
      addressBelow slash package t rest := by
    refine String.toList_inj.1 ?_
    rw [toList_addressBelow, toList_addressBelow, String.toList_ofList, String.toList_ofList, hcut]
  refine ⟨⟨slash, String.ofList before, u, String.ofList r, ?_, ?_, ?_, ?_⟩, hwritten⟩
  · intro h
    exact hbefore (by simpa using congrArg String.toList h)
  · rwa [String.toList_ofList]
  · rwa [String.toList_ofList, String.toList_ofList]
  · rwa [String.toList_ofList]

end StaticAddress

/-- An address without a static tree stands for itself. -/
lemma modulePath_of_not_hasTree {address : String} (h : ¬ HasTree address.toList) :
    modulePath address = address := by
  have hfront : ¬ HasTree (address.toList.takeWhile fun c => !isBlank c) :=
    fun hfront => h (hfront.mono (List.takeWhile_prefix _).isInfix)
  rw [modulePath, address?_eq_none hfront]

/-- **Module paths.** An address of a package, a static tree and a place stands for the package
with what is left of the place behind the last of its static trees. Each address of this form has a
last static tree, with a package before it. An address without static trees stands for itself. -/
theorem modulePath_lastTree :
    (∀ a : StaticAddress, modulePath a.written = "@" ++ a.package ++ a.tree.gap ++ a.path) ∧
    (∀ (slash : Bool) (package rest : String) (t : StaticTree), package ≠ "" →
      package.toList.head? ≠ some '/' →
      (∀ c ∈ package.toList ++ rest.toList, isBlank c = false) →
      ∃ a : StaticAddress, a.written = addressBelow slash package t rest) ∧
    ∀ address : String, ¬ HasTree address.toList → modulePath address = address :=
  ⟨StaticAddress.modulePath_written,
    fun slash _ _ t hne hhead hblank => StaticAddress.exists_written slash t hne hhead hblank,
    fun _ => modulePath_of_not_hasTree⟩

/-- An address with two static trees that share a slash. -/
def sharedSlash : StaticAddress where
  slash := true
  package := "web/static/src"
  tree := .tests
  rest := "core/index.js"
  named := by decide
  relative := by decide
  blankless := by simp [isBlank]
  last := by
    rintro ⟨t, ht⟩
    cases t <;> exact absurd ht (by decide +kernel)

theorem modulePath_lastTree_sharedSlash :
    modulePath "/web/static/src/static/tests/core/index.js" = "@web/static/src/../tests/core" ∧
    (∃ a : StaticAddress,
      a.written = addressBelow true "web" .sources "static/tests/core/index.js") ∧
    ¬ HasTree "web/static/lib/jquery.js".toList ∧
    modulePath "web/static/lib/jquery.js" = "web/static/lib/jquery.js" := by
  obtain ⟨hpath, hform, hplain⟩ := modulePath_lastTree
  have hnone : ¬ HasTree "web/static/lib/jquery.js".toList := by
    rintro ⟨t, ht⟩
    cases t <;> exact absurd ht (by decide +kernel)
  refine ⟨?_, hform true "web" _ .sources (by decide) (by decide) (by simp [isBlank]), hnone,
    hplain _ hnone⟩
  calc modulePath "/web/static/src/static/tests/core/index.js"
    _ = modulePath sharedSlash.written := congrArg modulePath (by decide)
    _ = "@" ++ sharedSlash.package ++ sharedSlash.tree.gap ++ sharedSlash.path := hpath sharedSlash
    _ = "@web/static/src/../tests/core" := by decide +kernel

end AddonAtlas.Script
