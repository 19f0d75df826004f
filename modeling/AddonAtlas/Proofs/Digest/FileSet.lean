import AddonAtlas.Digest.FileSet
import AddonAtlas.Proofs.Files.Places
import AddonAtlas.Proofs.Files.Spellings

/-!
What the digest of a set of files tells.

A listing can be read back line by line: a line is a digest, a blank and a path, and digests hold
neither blanks nor line breaks. So if no two texts that were hashed collide, equal digests of two
sets of files mean that the same paths hold the same contents.
-/

namespace AddonAtlas

namespace Path

variable {p q base a : Path} {l r : List String}

/-! ## Paths as seen from a directory -/

lemma inner_dropWhile (l : List String) : inner (l.dropWhile isFiller) = inner l := by
  induction l with
  | nil => rfl
  | cons s l ih =>
    cases h : isFiller s with
    | true => rw [List.dropWhile_cons_of_pos h, ih, inner_cons_filler h]
    | false => rw [List.dropWhile_cons_of_neg (by simp [h])]

lemma inner_dropWhile_reverse (l : List String) :
    inner (l.reverse.dropWhile isFiller).reverse = inner l := by
  have hreverse (l : List String) : inner l.reverse = (inner l).reverse := List.filterMap_reverse
  rw [hreverse, inner_dropWhile, hreverse, List.reverse_reverse]

lemma inner_dropComponents (n : Nat) (l : List String) :
    inner (dropComponents n false l) = (inner l).drop n := by
  induction l generalizing n with
  | nil => cases n <;> simp [dropComponents, inner]
  | cons s l ih =>
    cases n with
    | zero => rfl
    | succ n =>
      have hfill : isFiller s = (decide (s = "") || decide (s = ".")) := rfl
      cases h : isFiller s with
      | true => rw [dropComponents, ← hfill, if_pos h, ih, inner_cons_filler h]
      | false =>
        rw [dropComponents, ← hfill, if_neg (by simp [h]), ih, inner_cons_of_not_filler h,
          List.drop_succ_cons]

lemma subset_dropComponents (n : Nat) (first : Bool) (l : List String) :
    dropComponents n first l ⊆ l := by
  fun_induction dropComponents n first l with
  | case1 | case2 => exact List.Subset.refl _
  | case3 n s r ih | case4 n s r hfill ih | case5 n s r hfill ih =>
    exact List.subset_cons_of_subset s ih

lemma steps_intercalate (h : ∀ s ∈ l, '/' ∉ s.toList) :
    (Path.mk ("/".intercalate l)).steps = inner l := by
  by_cases hl : l = []
  · subst hl
    exact steps_empty
  · rw [steps, segments_intercalate hl h]

lemma isSome_below? : (p.below? base).isSome = true ↔ base.components <+: p.components := by
  rw [← List.isPrefixOf_iff_prefix]
  by_cases h : base.components.isPrefixOf p.components = true
  · simp only [below?, h, if_true, iff_true]
    split_ifs <;> rfl
  · rw [below?, if_neg h]
    simp [h]

/-- What is written below a base are the components that the base lacks. -/
lemma components_of_below? (hbase : base.text ≠ "") (h : p.below? base = some a) :
    p.components = base.components ++ a.steps := by
  have hne : base.components ≠ [] := fun hnil => hbase (text_eq_empty_of_components hnil)
  have hempty : base.components.isEmpty = false := by simpa using hne
  simp only [below?, hempty, Bool.false_and, Bool.false_eq_true, if_false,
    Option.ite_none_right_eq_some, List.isPrefixOf_iff_prefix, Option.some.injEq] at h
  obtain ⟨⟨rest, hrest⟩, rfl⟩ := h
  have hp : p.text ≠ "" := fun hp => by
    obtain rfl : p = ⟨""⟩ := congrArg Path.mk hp
    rw [components_empty] at hrest
    exact hne (List.append_eq_nil_iff.1 hrest).1
  obtain ⟨s, l, c, hseg, hcomps⟩ := exists_components_cons hp
  obtain ⟨b, bs, hbs⟩ := List.exists_cons_of_ne_nil hne
  have hslash : ∀ x ∈ ((dropComponents base.components.length true p.segments).dropWhile
      isFiller).reverse.dropWhile isFiller, '/' ∉ x.toList := fun x hx => by
    have hx := List.mem_reverse.1 ((List.dropWhile_sublist _).subset hx)
    exact not_mem_of_mem_segments
      (subset_dropComponents _ _ _ ((List.dropWhile_sublist _).subset hx))
  rw [steps_intercalate (by simpa using hslash), inner_dropWhile_reverse, inner_dropWhile, hseg,
    hbs, List.length_cons, dropComponents, inner_dropComponents, ← hrest, hbs]
  rw [hcomps, hbs, List.cons_append, List.cons.injEq] at hrest
  rw [← hrest.2, List.drop_left]

/-- A path that a listing shows as it is, on one line. -/
def IsPlain (p : Path) : Prop := '\n' ∉ p.text.toList ∧ '\\' ∉ p.text.toList

lemma mem_of_mem_intercalate {α : Type u} {x : α} {sep : List α} {ls : List (List α)}
    (h : x ∈ sep.intercalate ls) : x ∈ sep ∨ ∃ l ∈ ls, x ∈ l := by
  induction ls with
  | nil => cases h
  | cons m ls ih =>
    cases ls with
    | nil => simp_all [List.intercalate]
    | cons k ls =>
      simp only [List.intercalate, List.intersperse_cons_cons, List.flatten_cons,
        List.mem_append] at h ih
      grind

/-- What is left of a path is a bare beginning or is put together from segments of it. -/
lemma text_of_below? (h : p.below? base = some a) :
    a.text ∈ ["/", "", "."] ∨ ∃ l, l ⊆ p.segments ∧ a.text = "/".intercalate l := by
  simp only [Path.below?, Option.ite_none_right_eq_some] at h
  obtain ⟨-, h⟩ := h
  by_cases hbare : (base.components.isEmpty && (List.dropWhile isFiller (List.reverse
      (if base.components.isEmpty then dropComponents base.components.length true p.segments
      else (dropComponents base.components.length true p.segments).dropWhile
        isFiller))).reverse.isEmpty) = true
  · rw [if_pos hbare] at h
    obtain rfl := Option.some.inj h
    left
    dsimp only
    split_ifs <;> decide
  · rw [if_neg hbare] at h
    obtain rfl := Option.some.inj h
    refine .inr ⟨_, fun x hx => ?_, rfl⟩
    have hx := List.mem_reverse.1 ((List.dropWhile_sublist _).subset (List.mem_reverse.1 hx))
    split at hx
    · exact subset_dropComponents _ _ _ hx
    · exact subset_dropComponents _ _ _ ((List.dropWhile_sublist _).subset hx)

lemma IsPlain.below? (hp : p.IsPlain) (h : p.below? base = some a) : a.IsPlain := by
  rcases text_of_below? h with hbare | ⟨l, hl, htext⟩
  · have hplain : ∀ t ∈ ["/", "", "."], (Path.mk t).IsPlain := by
      unfold IsPlain
      decide
    exact hplain _ hbare
  · have hchar {x : Char} (hslash : x ≠ '/') (hx : x ∉ p.text.toList) : x ∉ a.text.toList := by
      intro hmem
      rw [htext, String.toList_intercalate] at hmem
      rcases mem_of_mem_intercalate hmem with hmem | ⟨cs, hcs, hmem⟩
      · exact hslash (List.mem_singleton.1 hmem)
      · obtain ⟨s, hs, rfl⟩ := List.mem_map.1 hcs
        exact hx (subset_of_mem_segments (hl hs) hmem)
    exact ⟨hchar (by decide) hp.1, hchar (by decide) hp.2⟩

end Path

namespace Digest

open AddonAtlas.Path

variable {t t' : FileTree} {base base' p q : Path} {c d : ByteArray} {l l' : List Path}

/-! ## Lines -/

lemma digit_of_mem_sha256 {x : Char} (h : x ∈ (sha256 c).toList) : ∃ n < 16, x = n.digitChar := by
  simp only [sha256, String.toList_ofList, List.mem_flatMap, hex8, List.mem_map] at h
  obtain ⟨w, -, i, -, rfl⟩ := h
  exact ⟨_, Nat.mod_lt _ (by decide), rfl⟩

/-- The digest of what a path leads to; a dash where there is no file. -/
def contentDigest (t : FileTree) (p : Path) : String :=
  match t.readBytes? p with
  | some c => sha256 c
  | none => "-"

lemma not_mem_contentDigest {x : Char} (hx : ∀ n < 16, x ≠ n.digitChar) (hdash : x ≠ '-') :
    x ∉ (contentDigest t p).toList := by
  intro h
  unfold contentDigest at h
  split at h
  · obtain ⟨n, hn, rfl⟩ := digit_of_mem_sha256 h
    exact hx n hn rfl
  · exact hdash (List.mem_singleton.1 h)

/-- Contents of one digest are one content, if it has not collided. -/
lemma readBytes?_of_contentDigest
    (hcollide : ∀ c d, t.readBytes? p = some c → t'.readBytes? q = some d →
      sha256 c = sha256 d → c = d)
    (h : contentDigest t p = contentDigest t' q) : t.readBytes? p = t'.readBytes? q := by
  have hdash {c : ByteArray} : sha256 c ≠ "-" := fun hc => by
    obtain ⟨n, hn, heq⟩ := digit_of_mem_sha256 (c := c) (x := '-') (by rw [hc]; decide)
    revert n
    decide
  unfold contentDigest at h
  cases hp : t.readBytes? p with
  | none =>
    cases hq : t'.readBytes? q with
    | none => rfl
    | some d =>
      simp only [hp, hq] at h
      exact absurd h.symm hdash
  | some c =>
    cases hq : t'.readBytes? q with
    | none =>
      simp only [hp, hq] at h
      exact absurd h hdash
    | some d =>
      simp only [hp, hq] at h
      rw [hcollide c d hp hq h]

/-- A path as a listing shows it. -/
def shown (base p : Path) : Path := (p.below? base).getD p

lemma isPlain_shown (hp : p.IsPlain) (base : Path) : (shown base p).IsPlain := by
  unfold shown
  cases h : p.below? base with
  | none => exact hp
  | some a => exact hp.below? h

lemma toList_fileLine (hp : p.IsPlain) :
    (fileLine t base p).toList =
      (contentDigest t p).toList ++ ' ' :: (shown base p).text.toList := by
  have hmap : (shown base p).text.toList.map (fun c => if c = '\\' then '/' else c) =
      (shown base p).text.toList := by
    refine (List.map_congr_left fun c hc => if_neg fun hback => ?_).trans (List.map_id _)
    exact (isPlain_shown hp base).2 (hback ▸ hc)
  have hline : (fileLine t base p).toList = ((contentDigest t p).toList ++ [' ']) ++
      (shown base p).text.toList.map (fun c => if c = '\\' then '/' else c) := by
    simp only [fileLine, String.toList_append, String.toList_ofList]
    rfl
  rw [hline, hmap, List.append_assoc]
  rfl

/-- A line tells its digest and the path it shows. -/
lemma eq_of_fileLine (hp : p.IsPlain) (hq : q.IsPlain)
    (h : fileLine t base p = fileLine t' base' q) :
    contentDigest t p = contentDigest t' q ∧ shown base p = shown base' q := by
  have hblank {t : FileTree} {p : Path} : ' ' ∉ (contentDigest t p).toList :=
    not_mem_contentDigest (by decide) (by decide)
  have hlist := congrArg String.toList h
  rw [toList_fileLine hp, toList_fileLine hq] at hlist
  obtain ⟨hdigest, htext⟩ := Text.eq_of_append_cons hblank hblank hlist
  exact ⟨String.toList_inj.1 hdigest, congrArg Path.mk (String.toList_inj.1 htext)⟩

/-! ## Listings -/

/-- The lines of a set of files. -/
def fileLines (t : FileTree) (base : Path) (l : List Path) : List String :=
  let once : PathSet := OrdMap.ofList (l.map fun p => (p.key, p))
  once.paths.map (fileLine t base)

/-- The text whose digest tells a set of files. -/
def listing (t : FileTree) (base : Path) (l : List Path) : String :=
  "\n".intercalate (fileLines t base l)

lemma fileSet_eq (t : FileTree) (base : Path) (l : List Path) :
    fileSet t base l = sha256 (listing t base l).toUTF8 := rfl

/-- The listed paths in order, of several spellings the last one. -/
def listed (l : List Path) : List Path :=
  PathSet.paths (OrdMap.ofList (l.map fun p => (p.key, p)))

lemma mem_of_get?_listed {k : List String}
    (h : (OrdMap.ofList (l.map fun p => (p.key, p))).get? k = some p) : p ∈ l ∧ p.key = k := by
  obtain ⟨q, hq, heq⟩ := List.mem_map.1 (OrdMap.mem_of_get?_ofList h)
  obtain ⟨hkey, rfl⟩ := Prod.mk.inj heq
  exact ⟨hq, hkey⟩

lemma mem_of_mem_listed (h : p ∈ listed l) : p ∈ l := by
  obtain ⟨k, hk⟩ := OrdMap.mem_values_iff.1 h
  exact (mem_of_get?_listed hk).1

/-- Each path is listed, perhaps in another spelling. -/
lemma exists_mem_listed (hp : p ∈ l) : ∃ q ∈ listed l, q.key = p.key := by
  obtain ⟨q, hq⟩ := OrdMap.mem_keys_iff.1
    (OrdMap.mem_keys_ofList.2 ⟨p, List.mem_map_of_mem (f := fun p : Path => (p.key, p)) hp⟩)
  exact ⟨q, OrdMap.mem_values_iff.2 ⟨_, hq⟩, (mem_of_get?_listed hq).2⟩

lemma ordered_listed (l : List Path) :
    (listed l).Pairwise fun p q => compare p.key q.key = .lt := by
  refine List.pairwise_map.2 ((OrdMap.ofList (l.map fun p => (p.key, p))).ordered.imp_of_mem ?_)
  intro e f he hf hlt
  have hkey := (mem_of_get?_listed (OrdMap.get?_eq_some_iff.2 he)).2
  have hkey' := (mem_of_get?_listed (OrdMap.get?_eq_some_iff.2 hf)).2
  rwa [hkey, hkey']

lemma mem_fileLines {x : String} (h : x ∈ fileLines t base l) : ∃ p ∈ l, x = fileLine t base p := by
  obtain ⟨p, hp, rfl⟩ := List.mem_map.1 h
  exact ⟨p, mem_of_mem_listed hp, rfl⟩

/-- Each path has a line, perhaps under another spelling. -/
lemma exists_fileLine (hp : p ∈ l) :
    ∃ q ∈ l, q.key = p.key ∧ fileLine t base q ∈ fileLines t base l := by
  obtain ⟨q, hq, hkey⟩ := exists_mem_listed hp
  exact ⟨q, mem_of_mem_listed hq, hkey, List.mem_map_of_mem hq⟩

/-- Equal contents, equal lines. -/
lemma fileLines_congr (h : ∀ p ∈ l, t.readBytes? p = t'.readBytes? p) :
    fileLines t base l = fileLines t' base l := by
  refine List.map_congr_left fun p hp => ?_
  rw [fileLine, fileLine, h p (mem_of_mem_listed hp)]

/-- A listing tells its lines. -/
lemma fileLines_of_listing (hl : ∀ p ∈ l, p.IsPlain) (hl' : ∀ p ∈ l', p.IsPlain)
    (h : listing t base l = listing t' base' l') : fileLines t base l = fileLines t' base' l' := by
  -- split at line breaks, a listing that is not empty gives its lines
  have hsplit {t : FileTree} {base : Path} {l : List Path} (hl : ∀ p ∈ l, p.IsPlain)
      (hne : fileLines t base l ≠ []) :
      (listing t base l).toList.splitOn '\n' = (fileLines t base l).map String.toList := by
    rw [listing, String.toList_intercalate]
    refine List.splitOn_intercalate '\n' (fun x hx hbreak => ?_) (by simpa using hne)
    obtain ⟨s, hs, rfl⟩ := List.mem_map.1 hx
    obtain ⟨p, hp, rfl⟩ := mem_fileLines hs
    rw [toList_fileLine (hl p hp), List.mem_append, List.mem_cons] at hbreak
    rcases hbreak with hbreak | hbreak | hbreak
    · exact not_mem_contentDigest (by decide) (by decide) hbreak
    · cases hbreak
    · exact (isPlain_shown (hl p hp) base).1 hbreak
  -- an empty one has none, since no line is empty
  have hempty {t : FileTree} {base : Path} {l : List Path} (hl : ∀ p ∈ l, p.IsPlain)
      (h : (listing t base l).toList = []) : fileLines t base l = [] := by
    by_contra hne
    have hlines := hsplit hl hne
    rw [h, List.splitOn_nil] at hlines
    obtain ⟨s, hs, hnil⟩ := List.mem_map.1 (hlines ▸ List.mem_singleton_self [])
    obtain ⟨p, hp, rfl⟩ := mem_fileLines hs
    rw [toList_fileLine (hl p hp)] at hnil
    simp at hnil
  have hlist := congrArg String.toList h
  by_cases hne : fileLines t base l = []
  · have hnil : (listing t base l).toList = [] := by rw [listing, hne]; rfl
    rw [hne, hempty hl' (hlist ▸ hnil)]
  · have hne' : fileLines t' base' l' ≠ [] := fun hne' => hne (hempty hl (by
      rw [hlist, listing, hne']
      rfl))
    have hlines := (hsplit hl hne).symm.trans ((congrArg _ hlist).trans (hsplit hl' hne'))
    exact List.map_injective_iff.2 (fun _ _ => String.toList_inj.1) hlines

/-- What two sets of files have to satisfy so that their digests can be compared: paths that a
listing shows as they are, none of which ends like a directory, none outside the base shown like one
below it, and no collision among the contents that were hashed, nor of the two listings. -/
structure Comparable (base : Path) (t t' : FileTree) (l l' : List Path) : Prop where
  plain : ∀ p ∈ l ++ l', p.IsPlain
  trails : ∀ p ∈ l ++ l', p.trails = false
  apart : ∀ p ∈ l, ∀ q ∈ l', shown base p = shown base q →
    (p.below? base).isSome = (q.below? base).isSome
  contents : ∀ p ∈ l, ∀ q ∈ l', ∀ c d, t.readBytes? p = some c → t'.readBytes? q = some d →
    sha256 c = sha256 d → c = d
  listings : sha256 (listing t base l).toUTF8 = sha256 (listing t' base l').toUTF8 →
    listing t base l = listing t' base l'

lemma Comparable.symm (h : Comparable base t t' l l') : Comparable base t' t l' l where
  plain p hp := h.plain p (List.mem_append.2 (List.mem_append.1 hp).symm)
  trails p hp := h.trails p (List.mem_append.2 (List.mem_append.1 hp).symm)
  apart p hp q hq hshown := (h.apart q hq p hp hshown.symm).symm
  contents p hp q hq c d hc hd hsha := (h.contents q hq p hp d c hd hc hsha.symm).symm
  listings hsha := (h.listings hsha.symm).symm

lemma key_of_shown (hbase : base.text ≠ "") (h : shown base p = shown base q)
    (hbelow : (p.below? base).isSome = (q.below? base).isSome) : p.key = q.key := by
  unfold shown at h
  cases hp : p.below? base with
  | none =>
    cases hq : q.below? base with
    | none =>
      rw [hp, hq] at h
      exact congrArg key h
    | some b => simp [hp, hq] at hbelow
  | some a =>
    cases hq : q.below? base with
    | none => simp [hp, hq] at hbelow
    | some b =>
      rw [hp, hq, Option.getD_some, Option.getD_some] at h
      exact key_of_components (by
        rw [components_of_below? hbase hp, components_of_below? hbase hq, h])

/-- **Equal digests, equal contents.** Where two sets of files have one digest, every spelling of a
path of the one set leads to the same content in both trees. -/
lemma readBytes?_of_fileSet (hbase : base.text ≠ "") (hcomp : Comparable base t t' l l')
    (h : fileSet t base l = fileSet t' base l') (hp : p.key ∈ l.map key) :
    t.readBytes? p = t'.readBytes? p := by
  have hplain : ∀ q ∈ l, q.IsPlain := fun q hq => hcomp.plain q (List.mem_append_left _ hq)
  have hplain' : ∀ q ∈ l', q.IsPlain := fun q hq => hcomp.plain q (List.mem_append_right _ hq)
  cases htrails : p.trails with
  | true => rw [FileTree.readBytes?_of_trails htrails, FileTree.readBytes?_of_trails htrails]
  | false =>
    have hlines := fileLines_of_listing hplain hplain' (hcomp.listings h)
    obtain ⟨o, ho, hokey⟩ := List.mem_map.1 hp
    obtain ⟨q, hq, hqkey, hline⟩ :
        ∃ q ∈ l, q.key = o.key ∧ fileLine t base q ∈ fileLines t base l := exists_fileLine ho
    rw [hlines] at hline
    obtain ⟨q', hq', hsame⟩ := mem_fileLines hline
    obtain ⟨hdigest, hshown⟩ := eq_of_fileLine (hplain q hq) (hplain' q' hq') hsame
    have hkey := hqkey.trans hokey
    have hkey' := (key_of_shown hbase hshown (hcomp.apart q hq q' hq' hshown)).symm.trans hkey
    have hcontent := readBytes?_of_contentDigest (hcomp.contents q hq q' hq') hdigest
    have hqtrails := hcomp.trails q (List.mem_append_left _ hq)
    have hqtrails' := hcomp.trails q' (List.mem_append_right _ hq')
    rw [← FileTree.readBytes?_congr hkey (hqtrails.trans htrails.symm), hcontent,
      FileTree.readBytes?_congr hkey' (hqtrails'.trans htrails.symm)]

end Digest

end AddonAtlas
