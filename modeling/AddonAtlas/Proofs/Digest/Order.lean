import AddonAtlas.Proofs.Digest.FileSet

/-!
What order and repetition do to the digest of a set of files.

A listing has one line for each path, in the order of the paths, and of several spellings of a path
the last one makes the line. So lists of the same paths have the same digest as long as no path is
spelled in two ways that make two lines; if one is, the order tells which line is made.
-/

namespace AddonAtlas.Digest

open AddonAtlas.Path

variable {t : FileTree} {base p q : Path} {l l' : List Path} {k : List String}

/-- A list has the same paths as another one, in whatever order and however often. -/
def Rearranges (l' l : List Path) : Prop := ∀ p, p ∈ l' ↔ p ∈ l

/-- The spelling that counts of the path with a key: the last one. -/
def lastSpelling (l : List Path) (k : List String) : Option Path :=
  l.reverse.find? fun p => p.key = k

/-- The line of the path with a key. -/
def lineAt (t : FileTree) (base : Path) (l : List Path) (k : List String) : String :=
  ((lastSpelling l k).map (fileLine t base)).getD ""

/-- The keys of the listed paths, in order and each once. -/
def listedKeys (l : List Path) : OrdSet (List String) := .ofList (l.map key)

/-! ## Lines by keys -/

lemma mem_listedKeys : k ∈ (listedKeys l).toList ↔ ∃ p ∈ l, p.key = k := by
  simp [listedKeys]

lemma lastSpelling_concat (l : List Path) (p : Path) (k : List String) :
    lastSpelling (l ++ [p]) k = if p.key = k then some p else lastSpelling l k := by
  unfold lastSpelling
  by_cases hk : p.key = k <;> simp [hk]

lemma mem_of_lastSpelling (h : lastSpelling l k = some p) : p ∈ l ∧ p.key = k := by
  have hmem := List.mem_of_find?_eq_some h
  have hkey := List.find?_some h
  exact ⟨List.mem_reverse.1 hmem, by simpa using hkey⟩

lemma exists_lastSpelling (h : k ∈ (listedKeys l).toList) : ∃ p, lastSpelling l k = some p := by
  obtain ⟨p, hp, hk⟩ := mem_listedKeys.1 h
  have hsome : (lastSpelling l k).isSome = true := by
    unfold lastSpelling
    rw [List.find?_isSome]
    exact ⟨p, List.mem_reverse.2 hp, by simpa using hk⟩
  exact Option.isSome_iff_exists.1 hsome

/-- A listing has a line for each key. -/
lemma fileLines_eq (t : FileTree) (base : Path) (l : List Path) :
    fileLines t base l = (listedKeys l).toList.map (lineAt t base l) := by
  have hget (k : List String) :
      (OrdMap.ofList (l.map fun p => (p.key, p))).get? k = lastSpelling l k := by
    rw [OrdMap.get?_ofList, ← List.map_reverse, List.find?_map, Option.map_map]
    exact Option.map_id'
  have hkeys : OrdSet.ofKeys (OrdMap.ofList (l.map fun p => (p.key, p))) = listedKeys l := by
    refine OrdSet.ext_mem fun k => ?_
    rw [OrdSet.mem_ofKeys, OrdMap.contains_iff_mem_keys, OrdMap.mem_keys_ofList, mem_listedKeys]
    simp
  have hlines : fileLines t base l =
      (OrdMap.ofList (l.map fun p => (p.key, p))).keys.map (lineAt t base l) := by
    unfold fileLines PathSet.paths OrdMap.values OrdMap.keys
    rw [List.map_map, List.map_map]
    refine List.map_congr_left fun e he => ?_
    have hlast : lastSpelling l e.1 = some e.2 :=
      (hget e.1).symm.trans (OrdMap.get?_eq_some_iff.2 he)
    simp [lineAt, hlast]
  rw [hlines, ← hkeys]
  rfl

lemma listedKeys_congr (h : Rearranges l' l) : listedKeys l' = listedKeys l := by
  refine OrdSet.ext_mem fun k => ?_
  rw [mem_listedKeys, mem_listedKeys]
  exact exists_congr fun p => and_congr_left' (h p)

lemma fileLines_rearranged (h : Rearranges l' l)
    (hlines : ∀ p ∈ l, ∀ q ∈ l, p.key = q.key → fileLine t base p = fileLine t base q) :
    fileLines t base l' = fileLines t base l := by
  rw [fileLines_eq, fileLines_eq, listedKeys_congr h]
  refine List.map_congr_left fun k hk => ?_
  obtain ⟨p, hp⟩ := exists_lastSpelling hk
  obtain ⟨q, hq⟩ := exists_lastSpelling (l := l') (listedKeys_congr h ▸ hk)
  obtain ⟨hpl, hpk⟩ := mem_of_lastSpelling hp
  obtain ⟨hql, hqk⟩ := mem_of_lastSpelling hq
  have hsame := hlines q ((h q).1 hql) p hpl (hqk.trans hpk.symm)
  simpa [lineAt, hp, hq] using hsame

/-! ## Listings that differ in one line -/

/-- Joined texts that differ in one part at most tell that part. -/
lemma eq_of_intercalate {α : Type} {sep x y : List α} {a b : List (List α)}
    (h : sep.intercalate (a ++ x :: b) = sep.intercalate (a ++ y :: b)) : x = y := by
  induction a with
  | nil =>
    cases b with
    | nil => simpa [List.intercalate] using h
    | cons z b =>
      simp only [List.nil_append, List.intercalate, List.intersperse_cons_cons,
        List.flatten_cons] at h
      exact List.append_cancel_right h
  | cons z a ih =>
    obtain ⟨u, v, huv⟩ : ∃ u v, a ++ x :: b = u :: v := by cases a <;> simp
    obtain ⟨u', v', huv'⟩ : ∃ u v, a ++ y :: b = u :: v := by cases a <;> simp
    rw [List.cons_append, List.cons_append, huv, huv'] at h
    simp only [List.intercalate, List.intersperse_cons_cons, List.flatten_cons] at h
    refine ih ?_
    rw [huv, huv', List.intercalate, List.intercalate]
    exact List.append_cancel_left (List.append_cancel_left h)

/-- With one path in two spellings at their ends, two lists tell by their listings whether these
make one line. -/
lemma fileLine_of_listing_concat (hp : p ∈ l) (hkey : p.key = q.key)
    (h : listing t base (l ++ [p]) = listing t base (l ++ [q])) :
    fileLine t base p = fileLine t base q := by
  have hkeys {r : Path} (hr : r.key = p.key) : listedKeys (l ++ [r]) = listedKeys l := by
    refine OrdSet.ext_mem fun k => ?_
    simp only [mem_listedKeys, List.mem_append, List.mem_singleton]
    constructor
    · rintro ⟨s, hs | rfl, hk⟩
      · exact ⟨s, hs, hk⟩
      · exact ⟨p, hp, hr.symm.trans hk⟩
    · rintro ⟨s, hs, hk⟩
      exact ⟨s, .inl hs, hk⟩
  -- the lines before and behind that of the path are the same
  obtain ⟨a, b, hab⟩ := List.append_of_mem (mem_listedKeys.2 ⟨p, hp, rfl⟩)
  have hnodup := hab ▸ (listedKeys l).nodup
  have hother {r : Path} (hr : r.key = p.key) {m : List (List String)} (hm : p.key ∉ m) :
      m.map (lineAt t base (l ++ [r])) = m.map (lineAt t base l) := by
    refine List.map_congr_left fun k hk => ?_
    have hne : r.key ≠ k := fun hrk => hm (hr ▸ hrk ▸ hk)
    rw [lineAt, lastSpelling_concat, if_neg hne, lineAt]
  have hlines {r : Path} (hr : r.key = p.key) : fileLines t base (l ++ [r]) =
      a.map (lineAt t base l) ++ fileLine t base r :: b.map (lineAt t base l) := by
    have ha : p.key ∉ a := fun hmem => by
      simpa using (List.nodup_append.1 hnodup).2.2 _ hmem _ List.mem_cons_self
    have hb : p.key ∉ b := (List.nodup_cons.1 (List.nodup_append.1 hnodup).2.1).1
    rw [fileLines_eq, hkeys hr, hab, List.map_append, List.map_cons, hother hr ha, hother hr hb,
      lineAt, lastSpelling_concat, if_pos hr]
    rfl
  rw [listing, listing, hlines rfl, hlines hkey.symm] at h
  have hlist := congrArg String.toList h
  simp only [String.toList_intercalate, List.map_append, List.map_cons] at hlist
  exact String.toList_inj.1 (eq_of_intercalate hlist)

/-- **Order and repetition.** Lists of the same paths have one digest if no path is spelled in two
ways that make two lines. If no two listings of these paths collide, they have one digest only
then. -/
theorem fileSet_rearranged (t : FileTree) (base : Path) (l : List Path) :
    ((∀ p ∈ l, ∀ q ∈ l, p.key = q.key → fileLine t base p = fileLine t base q) →
      ∀ l', Rearranges l' l → fileSet t base l' = fileSet t base l) ∧
    ((∀ l₁ l₂, Rearranges l₁ l → Rearranges l₂ l →
        sha256 (listing t base l₁).toUTF8 = sha256 (listing t base l₂).toUTF8 →
        listing t base l₁ = listing t base l₂) →
      (∀ l', Rearranges l' l → fileSet t base l' = fileSet t base l) →
      ∀ p ∈ l, ∀ q ∈ l, p.key = q.key → fileLine t base p = fileLine t base q) := by
  constructor
  · intro hlines l' h
    rw [fileSet_eq, fileSet_eq, listing, listing, fileLines_rearranged h hlines]
  · intro hcollide hsame p hp q hq hkey
    have hadd {r : Path} (hr : r ∈ l) : Rearranges (l ++ [r]) l := fun s => by
      simp only [List.mem_append, List.mem_singleton, or_iff_left_iff_imp]
      rintro rfl
      exact hr
    have hdigest := (hsame _ (hadd hp)).trans (hsame _ (hadd hq)).symm
    rw [fileSet_eq, fileSet_eq] at hdigest
    exact fileLine_of_listing_concat hp hkey (hcollide _ _ (hadd hp) (hadd hq) hdigest)

/-- One path in two spellings that a listing shows alike: the slashes next to the base go. -/
def besideBase : List Path := [⟨"d/a"⟩, ⟨"d//a"⟩]

theorem fileSet_rearranged_besideBase :
    (∀ p ∈ besideBase, ∀ q ∈ besideBase, p.key = q.key →
      fileLine {} ⟨"d"⟩ p = fileLine {} ⟨"d"⟩ q) ∧
    Rearranges [⟨"d//a"⟩, ⟨"d/a"⟩, ⟨"d//a"⟩] besideBase ∧
    fileSet {} ⟨"d"⟩ [⟨"d//a"⟩, ⟨"d/a"⟩, ⟨"d//a"⟩] = fileSet {} ⟨"d"⟩ besideBase := by
  have hlines : ∀ p ∈ besideBase, ∀ q ∈ besideBase, p.key = q.key →
      fileLine {} ⟨"d"⟩ p = fileLine {} ⟨"d"⟩ q := by
    have hone : (Path.mk "d/a").segments = ["d", "a"] :=
      segments_intercalate (l := ["d", "a"]) (by decide) (by decide)
    have htwo : (Path.mk "d//a").segments = ["d", "", "a"] :=
      segments_intercalate (l := ["d", "", "a"]) (by decide) (by decide)
    have hbase : (Path.mk "d").segments = ["d"] := segments_of_not_mem (by decide)
    have hline : ∀ p ∈ besideBase, fileLine {} ⟨"d"⟩ p = "- a" := by
      simp only [besideBase, List.forall_mem_cons]
      unfold fileLine FileTree.readBytes? FileTree.lookup FileTree.place? FileTree.fromTop below?
        components
      rw [hone, htwo, hbase]
      decide +kernel
    exact fun p hp q hq _ => (hline p hp).trans (hline q hq).symm
  have hsame : Rearranges [⟨"d//a"⟩, ⟨"d/a"⟩, ⟨"d//a"⟩] besideBase := fun p => by
    simp [besideBase, or_comm]
  exact ⟨hlines, hsame, (fileSet_rearranged {} ⟨"d"⟩ besideBase).1 hlines _ hsame⟩

/-! ### Two spellings of a path -/

/-- Of two spellings of a path the last one makes the line. -/
lemma listing_pair (h : p.key = q.key) : listing t base [p, q] = fileLine t base q := by
  have hkeys : listedKeys [p, q] = OrdSet.ofList [q.key] := OrdSet.ext_mem fun k => by
    simp [mem_listedKeys, h, eq_comm]
  have hlist : (OrdSet.ofList [q.key]).toList = [q.key] := rfl
  have hlines : fileLines t base [p, q] = [fileLine t base q] := by
    rw [fileLines_eq, hkeys, hlist]
    simp [lineAt, lastSpelling]
  rw [listing, hlines]
  exact String.intercalate_singleton

/-- A path in two spellings, with one slash and with two between two of its components. -/
lemma segments_doubled : (Path.mk "d/a/b").segments = ["d", "a", "b"] ∧
    (Path.mk "d/a//b").segments = ["d", "a", "", "b"] :=
  ⟨segments_intercalate (l := ["d", "a", "b"]) (by decide) (by decide),
    segments_intercalate (l := ["d", "a", "", "b"]) (by decide) (by decide)⟩

lemma key_doubled : (Path.mk "d/a/b").key = (Path.mk "d/a//b").key := by
  obtain ⟨hone, htwo⟩ := segments_doubled
  refine key_of_components ?_
  rw [components, components, hone, htwo]
  rfl

lemma fileLine_doubled : fileLine {} ⟨"d"⟩ ⟨"d/a/b"⟩ = "- a/b" ∧
    fileLine {} ⟨"d"⟩ ⟨"d/a//b"⟩ = "- a//b" := by
  obtain ⟨hone, htwo⟩ := segments_doubled
  have hbase : (Path.mk "d").segments = ["d"] := segments_of_not_mem (by decide)
  unfold fileLine FileTree.readBytes? FileTree.lookup FileTree.place? FileTree.fromTop below?
    components
  rw [hone, htwo, hbase]
  decide +kernel

/-- The spelling that comes last in the list is the one that is shown. -/
theorem not_fileSet_rearranged :
    ¬ ∀ (t : FileTree) (base : Path) (l l' : List Path), Rearranges l' l →
      fileSet t base l' = fileSet t base l := by
  intro h
  have hsame := h {} ⟨"d"⟩ [⟨"d/a/b"⟩, ⟨"d/a//b"⟩] [⟨"d/a//b"⟩, ⟨"d/a/b"⟩] fun p => by
    simp [or_comm]
  rw [fileSet_eq, fileSet_eq, listing_pair key_doubled.symm, listing_pair key_doubled,
    fileLine_doubled.1, fileLine_doubled.2] at hsame
  revert hsame
  decide +kernel

end AddonAtlas.Digest
