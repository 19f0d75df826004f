import AddonAtlas.Proofs.Digest.FileSet
import Mathlib.Data.Set.Basic

/-!
The digest of a set of files tells what lies where below the base, and nothing else.

A line is made of the path below the base and of the content, and the lines come in the order of the
paths below the base, since a base in front of all of them changes no comparison. So wherever two
trees lie, equal holdings give one listing; and a listing can be read back into the holdings.
-/

namespace AddonAtlas

lemma compare_append_left (l r r' : List String) : compare (l ++ r) (l ++ r') = compare r r' := by
  induction l with
  | nil => rfl
  | cons a l ih =>
    rw [List.cons_append, List.cons_append, List.compare_cons_cons, Std.ReflOrd.compare_self, ih]
    rfl

namespace Digest

open AddonAtlas.Path

variable {t t' : FileTree} {base base' p q : Path} {l l' : List Path}

/-- Paths strictly below a base, without empty components and dots, that a listing shows as they
are. -/
structure Listable (base : Path) (l : List Path) : Prop where
  below : ∀ p ∈ l, ∃ cs, cs ≠ [] ∧ p.components = base.components ++ cs
  tidy : ∀ p ∈ l, p.IsTidy
  plain : ∀ p ∈ l, p.IsPlain

/-- What a list of paths holds: the components below the base, each with the content found there, if
there is one. -/
def holdings (t : FileTree) (base : Path) (l : List Path) :
    Set (List Component × Option ByteArray) :=
  {e | ∃ p ∈ l, p.components = base.components ++ e.1 ∧ t.readBytes? p = e.2}

/-- Nothing that is hashed for two lists of paths collides: no content of the one with a content of
the other, and the two listings do not. -/
structure NoCollision (base base' : Path) (t t' : FileTree) (l l' : List Path) : Prop where
  contents : ∀ p ∈ l, ∀ q ∈ l', ∀ c d, t.readBytes? p = some c → t'.readBytes? q = some d →
    sha256 c = sha256 d → c = d
  listings : sha256 (listing t base l).toUTF8 = sha256 (listing t' base' l').toUTF8 →
    listing t base l = listing t' base' l'

lemma NoCollision.symm (h : NoCollision base base' t t' l l') :
    NoCollision base' base t' t l' l where
  contents p hp q hq c d hc hd hsha := (h.contents q hq p hp d c hd hc hsha.symm).symm
  listings hsha := (h.listings hsha.symm).symm

/-! ## Lines of tidy paths -/

/-- The line of a path below the base, from what is shown of it and the content. -/
def lineOf (e : Path × Option ByteArray) : String :=
  (match e.2 with
    | some c => sha256 c
    | none => "-") ++ " " ++
    String.ofList (e.1.text.toList.map fun c => if c = '\\' then '/' else c)

/-- What a line is made from. -/
def entry (t : FileTree) (base p : Path) : Path × Option ByteArray := (shown base p, t.readBytes? p)

lemma Listable.shown_eq (h : Listable base l) (hp : p ∈ l) :
    ∃ cs, p.components = base.components ++ cs ∧ shown base p = ⟨spelling cs⟩ ∧
      (shown base p).components = cs := by
  obtain ⟨cs, hne, hcs⟩ := h.below p hp
  have hshown : shown base p = ⟨spelling cs⟩ := by
    rw [shown, below?_of_isTidy (h.tidy p hp) hcs hne]
    rfl
  have hproper : IsProper cs := by
    have hp := p.isProper_components
    rw [hcs] at hp
    exact isProper_of_append hp
  exact ⟨cs, hcs, hshown, by rw [hshown, components_spelling hproper]⟩

/-- The key of a path is that of the base and what is shown. -/
lemma Listable.key_eq (h : Listable base l) (hp : p ∈ l) :
    p.key = base.key ++ (shown base p).key := by
  obtain ⟨cs, hcs, -, hshown⟩ := h.shown_eq hp
  rw [key, key, key, hcs, hshown, List.map_append]

lemma Listable.eq_of_key (h : Listable base l) (hp : p ∈ l) (hq : q ∈ l) (hkey : p.key = q.key) :
    p = q :=
  (h.tidy p hp).eq_of_components (h.tidy q hq) (components_of_key hkey)

/-- A tidy path has no other spelling, so it is listed itself. -/
lemma Listable.mem_listed (h : Listable base l) : p ∈ listed l ↔ p ∈ l := by
  constructor
  · exact mem_of_mem_listed
  · intro hp
    obtain ⟨q, hq, hkey⟩ := exists_mem_listed hp
    rwa [← h.eq_of_key (mem_of_mem_listed hq) hp hkey]

/-- What the lines are made from, in the order of the lines. -/
def entries (t : FileTree) (base : Path) (l : List Path) : List (Path × Option ByteArray) :=
  (listed l).map (entry t base)

lemma fileLines_eq_entries (t : FileTree) (base : Path) (l : List Path) :
    fileLines t base l = (entries t base l).map lineOf := by
  rw [entries, List.map_map]
  rfl

lemma Listable.mem_entries (h : Listable base l) {e : Path × Option ByteArray} :
    e ∈ entries t base l ↔ ∃ p ∈ l, entry t base p = e := by
  rw [entries, List.mem_map]
  exact exists_congr fun p => and_congr_left' h.mem_listed

/-- The order of the lines is that of the paths below the base. -/
lemma Listable.ordered_entries (h : Listable base l) :
    (entries t base l).Pairwise fun e f => compare e.1.key f.1.key = .lt := by
  refine List.pairwise_map.2 ((ordered_listed l).imp_of_mem fun {p q} hp hq hlt => ?_)
  rw [h.key_eq (mem_of_mem_listed hp), h.key_eq (mem_of_mem_listed hq), compare_append_left] at hlt
  exact hlt

/-! ## Equal holdings, equal listings -/

/-- An entry says what is held where. -/
lemma Listable.mem_entries_iff (h : Listable base l) {e : Path × Option ByteArray} :
    e ∈ entries t base l ↔ e.1.IsTidy ∧ (e.1.components, e.2) ∈ holdings t base l := by
  rw [h.mem_entries]
  constructor
  · rintro ⟨p, hp, rfl⟩
    obtain ⟨cs, hcs, hshown, hcomps⟩ := h.shown_eq hp
    refine ⟨?_, p, hp, ?_, rfl⟩
    · rw [entry, IsTidy, hcomps, hshown]
    · rw [entry, hcomps]
      exact hcs
  · rintro ⟨htidy, p, hp, hcs, hread⟩
    obtain ⟨cs, hcs', hshown, hcomps⟩ := h.shown_eq hp
    have hsame : cs = e.1.components := List.append_cancel_left (hcs'.symm.trans hcs)
    have hpath : shown base p = e.1 := by
      rw [hshown, hsame, ← htidy]
    exact ⟨p, hp, Prod.ext hpath hread⟩

lemma Listable.entries_eq (h : Listable base l) (h' : Listable base' l')
    (hsame : holdings t base l = holdings t' base' l') :
    entries t base l = entries t' base' l' := by
  refine eq_of_ordered (fun e => e.1.key) h.ordered_entries h'.ordered_entries fun e => ?_
  rw [h.mem_entries_iff, h'.mem_entries_iff, hsame]

/-! ## Equal listings, equal holdings -/

/-- What is held is told by the lines. -/
lemma Listable.holdings_subset (h : Listable base l) (h' : Listable base' l')
    (hcollide : NoCollision base base' t t' l l')
    (hlines : fileLines t base l = fileLines t' base' l') :
    holdings t base l ⊆ holdings t' base' l' := by
  rintro ⟨cs, c⟩ ⟨p, hp, hcs, hread⟩
  have hline : fileLine t base p ∈ fileLines t' base' l' := by
    rw [← hlines]
    exact List.mem_map_of_mem (h.mem_listed.2 hp)
  obtain ⟨q, hq, hpq⟩ := mem_fileLines hline
  obtain ⟨hdigest, hshown⟩ := eq_of_fileLine (h.plain p hp) (h'.plain q hq) hpq
  have hcontent := readBytes?_of_contentDigest (hcollide.contents p hp q hq) hdigest
  obtain ⟨ds, hds, -, hcomps⟩ := h.shown_eq hp
  obtain ⟨es, hes, -, hcomps'⟩ := h'.shown_eq hq
  have hds' : ds = cs := List.append_cancel_left (hds.symm.trans hcs)
  have hsame : es = cs := by rw [← hds', ← hcomps, ← hcomps', hshown]
  exact ⟨q, hq, by rw [hes, hsame], hcontent.symm.trans hread⟩

/-- **The digest tells the holdings.** Wherever two sets of files lie, they have one digest if and
only if they hold the same contents at the same places below their bases, provided that nothing that
is hashed for them collides. -/
theorem fileSet_eq_iff_holdings (h : Listable base l) (h' : Listable base' l')
    (hcollide : NoCollision base base' t t' l l') :
    fileSet t base l = fileSet t' base' l' ↔ holdings t base l = holdings t' base' l' := by
  rw [fileSet_eq, fileSet_eq]
  constructor
  · intro hdigest
    have hlines := fileLines_of_listing h.plain h'.plain (hcollide.listings hdigest)
    exact (h.holdings_subset h' hcollide hlines).antisymm
      (h'.holdings_subset h hcollide.symm hlines.symm)
  · intro hsame
    rw [listing, listing, fileLines_eq_entries, fileLines_eq_entries, h.entries_eq h' hsame]

/-! ### A file and a missing one -/

/-- Two paths below a directory. -/
def twoFiles (dir : String) : List Path := [⟨dir ++ "/" ++ "a"⟩, ⟨dir ++ "/" ++ "b"⟩]

/-- A tree that has the first one of two paths. -/
def firstOnly (dir : String) : FileTree :=
  ({} : FileTree).addFile [dir, "a"] "pass".toUTF8

variable {dir dir' n : String}

lemma segments_inside (hdir : IsName dir) (hn : IsName n) :
    (Path.mk (dir ++ "/" ++ n)).segments = [dir, n] := by
  rw [segments_append, segments_of_isName hdir, segments_of_isName hn]
  rfl

lemma components_inside (hdir : IsName dir) (hn : IsName n) :
    (Path.mk (dir ++ "/" ++ n)).components = (Path.mk dir).components ++ [.name n] := by
  have hlead := lead_append hdir.1 n
  have hsteps := steps_append dir n
  rw [steps_of_isName hn] at hsteps
  rw [components_eq, components_eq, hlead, hsteps, List.append_assoc]

lemma listable_twoFiles (hdir : IsName dir) (hplain : (Path.mk dir).IsPlain) :
    Listable ⟨dir⟩ (twoFiles dir) := by
  have hnames : ∀ p ∈ twoFiles dir, ∃ n, IsName n ∧ (Path.mk n).IsPlain ∧
      p = ⟨dir ++ "/" ++ n⟩ := by
    have ha : IsName "a" ∧ IsName "b" := by decide
    have hplain : (Path.mk "a").IsPlain ∧ (Path.mk "b").IsPlain := by
      unfold IsPlain
      decide
    intro p hp
    rcases List.mem_cons.1 hp with rfl | hp
    · exact ⟨"a", ha.1, hplain.1, rfl⟩
    · exact ⟨"b", ha.2, hplain.2, List.mem_singleton.1 hp⟩
  exact {
    below := fun p hp => by
      obtain ⟨n, hn, -, rfl⟩ := hnames p hp
      exact ⟨[.name n], by simp, components_inside hdir hn⟩
    tidy := fun p hp => by
      obtain ⟨n, hn, -, rfl⟩ := hnames p hp
      refine isTidy_of_segments fun s hs => ?_
      rw [segments_inside hdir hn] at hs
      rw [List.mem_singleton.1 hs]
      exact isFiller_of_isName hn
    plain := fun p hp => by
      obtain ⟨n, -, hn, rfl⟩ := hnames p hp
      unfold IsPlain at hn hplain ⊢
      simp_all }

lemma holdings_twoFiles (hdir : IsName dir) (t : FileTree) :
    holdings t ⟨dir⟩ (twoFiles dir) = {([.name "a"], t.readBytes? ⟨dir ++ "/" ++ "a"⟩),
      ([.name "b"], t.readBytes? ⟨dir ++ "/" ++ "b"⟩)} := by
  have ha := components_inside hdir (n := "a") (by decide)
  have hb := components_inside hdir (n := "b") (by decide)
  ext ⟨cs, c⟩
  simp [holdings, twoFiles, ha, hb, eq_comm]

/-- A directory of the given name holds the first file and lacks the second one. -/
lemma reads_firstOnly (hdir : dir ∈ ["old", "new"]) :
    (firstOnly dir).readBytes? ⟨dir ++ "/" ++ "a"⟩ = some "pass".toUTF8 ∧
      (firstOnly dir).readBytes? ⟨dir ++ "/" ++ "b"⟩ = none := by
  have hname : IsName dir := by
    revert dir
    decide
  have ha := segments_inside hname (n := "a") (by decide)
  have hb := segments_inside hname (n := "b") (by decide)
  unfold FileTree.readBytes? FileTree.lookup FileTree.place? FileTree.fromTop
  rw [ha, hb]
  clear ha hb hname
  revert dir
  decide +kernel

theorem fileSet_eq_iff_holdings_moved :
    Listable ⟨"old"⟩ (twoFiles "old") ∧ Listable ⟨"new"⟩ (twoFiles "new") ∧
    NoCollision ⟨"old"⟩ ⟨"new"⟩ (firstOnly "old") (firstOnly "new") (twoFiles "old")
      (twoFiles "new") ∧
    holdings (firstOnly "old") ⟨"old"⟩ (twoFiles "old") =
      {([.name "a"], some "pass".toUTF8), ([.name "b"], none)} ∧
    fileSet (firstOnly "old") ⟨"old"⟩ (twoFiles "old") =
      fileSet (firstOnly "new") ⟨"new"⟩ (twoFiles "new") := by
  have hplain : (Path.mk "old").IsPlain ∧ (Path.mk "new").IsPlain := by
    unfold IsPlain
    decide
  have hnames : IsName "old" ∧ IsName "new" := by decide
  have hold := listable_twoFiles hnames.1 hplain.1
  have hnew := listable_twoFiles hnames.2 hplain.2
  have hdirs : ∀ dir ∈ ["old", "new"], _ := fun _ => reads_firstOnly
  have hreads := hdirs "old" (by decide)
  have hreads' := hdirs "new" (by decide)
  have hholds := holdings_twoFiles hnames.1 (firstOnly "old")
  have hholds' := holdings_twoFiles hnames.2 (firstOnly "new")
  rw [hreads.1, hreads.2] at hholds
  rw [hreads'.1, hreads'.2] at hholds'
  have hsame := hholds.trans hholds'.symm
  have hcontent {dir : String} (hreads : (firstOnly dir).readBytes? ⟨dir ++ "/" ++ "a"⟩ =
      some "pass".toUTF8 ∧ (firstOnly dir).readBytes? ⟨dir ++ "/" ++ "b"⟩ = none) :
      ∀ p ∈ twoFiles dir, ∀ c, (firstOnly dir).readBytes? p = some c → c = "pass".toUTF8 := by
    intro p hp c hc
    simp only [twoFiles, List.mem_cons, List.not_mem_nil, or_false] at hp
    rcases hp with rfl | rfl
    · exact Option.some.inj (hc.symm.trans hreads.1)
    · rw [hreads.2] at hc
      cases hc
  have hcollide : NoCollision ⟨"old"⟩ ⟨"new"⟩ (firstOnly "old") (firstOnly "new") (twoFiles "old")
      (twoFiles "new") := {
    contents := fun p hp q hq c d hc hd _ =>
      (hcontent hreads p hp c hc).trans (hcontent hreads' q hq d hd).symm
    listings := fun _ => by
      rw [listing, listing, fileLines_eq_entries, fileLines_eq_entries,
        hold.entries_eq hnew hsame] }
  exact ⟨hold, hnew, hcollide, hholds, (fileSet_eq_iff_holdings hold hnew hcollide).2 hsame⟩

end Digest

end AddonAtlas
