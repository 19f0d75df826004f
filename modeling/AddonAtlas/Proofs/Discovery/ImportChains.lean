import AddonAtlas.Proofs.Discovery.Resolution

/-!
Walks along the segments of an import.

An import names a chain of segments, each of which leads one directory further down. The walk along
them ends at the first segment for which a source is there, or nothing to go on with. The entry
points on the way that are there are what the import pulls in, and the source at the end behind
them.
-/

namespace AddonAtlas.Import

open AddonAtlas.Path

variable {t : FileTree} {entryPoint path x : String} {d : Path} {chain segs r : List String}
  {k : Nat}

/-! ## Segments -/

/-- A text that segments come from: dots, the segments with a dot between each two of them, and
nothing more, or else a dot that ends the text or is followed by another one. -/
structure Spells (path : String) (chain : List String) : Prop where
  dotless : ∀ x ∈ chain, x ≠ "" ∧ '.' ∉ x.toList
  text : ∃ dots rest, path.toList =
      List.replicate dots '.' ++ (".".intercalate chain).toList ++ rest ∧
    (rest = [] ∨ chain ≠ [] ∧ (rest = ['.'] ∨ ['.', '.'] <+: rest))

/-- Pieces of which the first one is empty put together to nothing, or to a text that begins with a
dot. -/
lemma intercalate_cons_empty (m : List String) :
    (".".intercalate ("" :: m)).toList = [] ∨
      ∃ r, (".".intercalate ("" :: m)).toList = '.' :: r := by
  cases m with
  | nil => exact .inl (by simp)
  | cons y m =>
    exact .inr ⟨(".".intercalate (y :: m)).toList, by simp [String.intercalate_cons_cons]⟩

/-- A text that begins with no dot is its pieces between dots up to the first empty one, and what
stands behind them. -/
lemma exists_rest {s : String} (h : s.toList.head? ≠ some '.') :
    ∃ rest, s.toList = (".".intercalate ((s.splitOn ".").takeWhile (· ≠ ""))).toList ++ rest ∧
      (rest = [] ∨ (s.splitOn ".").takeWhile (· ≠ "") ≠ [] ∧
        (rest = ['.'] ∨ ['.', '.'] <+: rest)) := by
  have hpieces : ".".intercalate (s.splitOn ".") = s := Text.intercalate_splitOn s '.'
  have happend := List.takeWhile_append_dropWhile (p := (· ≠ "")) (l := s.splitOn ".")
  have hempty := List.head?_dropWhile_not (· ≠ "") (s.splitOn ".")
  generalize (s.splitOn ".").takeWhile (· ≠ "") = chain at happend ⊢
  cases hleft : (s.splitOn ".").dropWhile (· ≠ "") with
  | nil =>
    rw [hleft, List.append_nil] at happend
    exact ⟨[], by rw [happend, hpieces, List.append_nil], .inl rfl⟩
  | cons y m =>
    rw [hleft] at happend hempty
    obtain rfl : y = "" := by simpa using hempty
    by_cases hnil : chain = []
    · -- an empty piece at the beginning is followed by a dot, unless the text is empty
      rw [hnil, List.nil_append] at happend
      rw [← happend] at hpieces
      refine ⟨[], ?_, .inl rfl⟩
      rcases intercalate_cons_empty m with hm | ⟨r, hm⟩
      · rw [hnil, ← hpieces, hm]
        simp
      · rw [hpieces] at hm
        simp [hm] at h
    · refine ⟨'.' :: (".".intercalate ("" :: m)).toList, ?_, .inr ⟨hnil, ?_⟩⟩
      · rw [← hpieces, ← happend, String.intercalate_append_of_ne_nil hnil (by simp)]
        simp
      · rcases intercalate_cons_empty m with hm | ⟨r, hm⟩
        · exact .inl (by rw [hm])
        · exact .inr ⟨r, by rw [hm]; rfl⟩

lemma spells_segmentsOf (path : String) : Spells path (segmentsOf path) where
  dotless x hx := by
    refine ⟨by simpa using List.mem_takeWhile_imp hx, ?_⟩
    exact dotless_of_mem_segmentsOf hx
  text := by
    have hhead := List.head?_dropWhile_not (· == '.') path.toList
    have hfirst : (String.ofList (path.toList.dropWhile (· == '.'))).toList.head? ≠ some '.' := by
      rw [String.toList_ofList]
      intro h
      simp [h] at hhead
    have hdots : path.toList.takeWhile (· == '.') =
        List.replicate (path.toList.takeWhile (· == '.')).length '.' :=
      List.eq_replicate_of_mem fun c hc => by simpa using List.mem_takeWhile_imp hc
    obtain ⟨rest, hrest, hend⟩ := exists_rest hfirst
    refine ⟨(path.toList.takeWhile (· == '.')).length, rest, ?_, hend⟩
    rw [List.append_assoc, segmentsOf, ← hrest, String.toList_ofList, ← hdots,
      List.takeWhile_append_dropWhile]

/-! ## One segment -/

/-- A walk ends at a segment: a source of its name is there, or neither an entry point nor a
directory below. -/
def EndsAt (t : FileTree) (entryPoint : String) (d : Path) (x : String) : Prop :=
  t.isFile (d.join (x ++ ".py")) = true ∨
    t.isFile ((d.join x).join entryPoint) = false ∧ t.isDirectory (d.join x) = false

/-- At the end of a walk the source of the segment is taken, if it is there. -/
lemma resolveSegments_of_endsAt (hx : x ≠ "") (h : EndsAt t entryPoint d x) (r : List String) :
    resolveSegments t entryPoint d (x :: r) = [d.join (x ++ ".py")].filter t.isFile := by
  rw [resolveSegments, if_neg (by simpa using hx)]
  cases hsource : t.isFile (d.join (x ++ ".py")) with
  | true => simp [hsource]
  | false =>
    obtain ⟨hentry, hdir⟩ := h.resolve_left (by simp [hsource])
    simp [hsource, hentry, hdir]

/-- On the way the entry point of the segment is taken, if it is there. -/
lemma resolveSegments_of_not_endsAt (hx : x ≠ "") (h : ¬ EndsAt t entryPoint d x)
    (r : List String) :
    resolveSegments t entryPoint d (x :: r) =
      [(d.join x).join entryPoint].filter t.isFile ++
        resolveSegments t entryPoint (d.join x) r := by
  obtain ⟨hsource, hbelow⟩ := not_or.1 h
  rw [Bool.not_eq_true] at hsource
  rw [resolveSegments, if_neg (by simpa using hx)]
  cases hentry : t.isFile ((d.join x).join entryPoint) with
  | true => simp [hsource, hentry]
  | false =>
    have hdir : t.isDirectory (d.join x) = true := by simpa [hentry] using hbelow
    simp [hsource, hentry, hdir]

/-! ## Chains -/

/-- The walk along a chain passes its first segments, and ends at the one behind them if there is
one. -/
structure WalksTo (t : FileTree) (entryPoint : String) (d : Path) (chain : List String) (k : Nat) :
    Prop where
  le_length : k ≤ chain.length
  passed : ∀ i < k, ∀ x ∈ chain[i]?, ¬ EndsAt t entryPoint (d.descend (chain.take i)) x
  ended : ∀ x ∈ chain[k]?, EndsAt t entryPoint (d.descend (chain.take k)) x

/-- The entry points below the first segments of a chain, in their order. -/
def entryPoints (entryPoint : String) (d : Path) (chain : List String) (k : Nat) : List Path :=
  (List.range k).map fun i => (d.descend (chain.take (i + 1))).join entryPoint

/-- The source of a segment of a chain, in the directory that those before it lead to. -/
def sourceAt (d : Path) (chain : List String) (k : Nat) : List Path :=
  chain[k]?.toList.map fun x => (d.descend (chain.take k)).join (x ++ ".py")

lemma walksTo_zero (h : EndsAt t entryPoint d x) (r : List String) :
    WalksTo t entryPoint d (x :: r) 0 where
  le_length := Nat.zero_le _
  passed := by simp
  ended := by simpa using h

lemma WalksTo.succ (hx : ¬ EndsAt t entryPoint d x) (h : WalksTo t entryPoint (d.join x) r k) :
    WalksTo t entryPoint d (x :: r) (k + 1) where
  le_length := Nat.succ_le_succ h.le_length
  passed i hi y hy := by
    cases i with
    | zero =>
      obtain rfl : x = y := by simpa using hy
      exact hx
    | succ i => exact h.passed i (Nat.lt_of_succ_lt_succ hi) y (by simpa using hy)
  ended y hy := h.ended y (by simpa using hy)

lemma entryPoints_succ (entryPoint : String) (d : Path) (x : String) (r : List String) (k : Nat) :
    entryPoints entryPoint d (x :: r) (k + 1) =
      (d.join x).join entryPoint :: entryPoints entryPoint (d.join x) r k := by
  rw [entryPoints, List.range_succ_eq_map, List.map_cons, List.map_map]
  rfl

lemma sourceAt_succ (d : Path) (x : String) (r : List String) (k : Nat) :
    sourceAt d (x :: r) (k + 1) = sourceAt (d.join x) r k := rfl

/-- A walk pulls in what is there of the entry points on its way and of the source at its end. -/
lemma exists_walksTo (hchain : ∀ x ∈ chain, x ≠ "") (d : Path) :
    ∃ k, WalksTo t entryPoint d chain k ∧ resolveSegments t entryPoint d chain =
      (entryPoints entryPoint d chain k ++ sourceAt d chain k).filter t.isFile := by
  induction chain generalizing d with
  | nil => exact ⟨0, ⟨Nat.le_refl 0, by simp, by simp⟩, rfl⟩
  | cons x r ih =>
    obtain ⟨hx, hr⟩ := List.forall_mem_cons.1 hchain
    by_cases hend : EndsAt t entryPoint d x
    · exact ⟨0, walksTo_zero hend r, resolveSegments_of_endsAt hx hend r⟩
    · obtain ⟨k, hwalk, hbelow⟩ := ih hr (d.join x)
      refine ⟨k + 1, hwalk.succ hend, ?_⟩
      rw [resolveSegments_of_not_endsAt hx hend, hbelow, ← List.filter_append, entryPoints_succ,
        sourceAt_succ]
      rfl

/-- A walk has one end. -/
lemma WalksTo.eq {j : Nat} (hj : WalksTo t entryPoint d chain j)
    (hk : WalksTo t entryPoint d chain k) :
    j = k := by
  have hle {i m : Nat} (hi : WalksTo t entryPoint d chain i) (hm : WalksTo t entryPoint d chain m) :
      m ≤ i := by
    by_contra h
    have hlt : i < m := by omega
    have hsome := List.getElem?_eq_getElem (lt_of_lt_of_le hlt hm.le_length)
    exact hm.passed i hlt _ hsome (hi.ended _ hsome)
  have hjk := hle hj hk
  have hkj := hle hk hj
  omega

/-- **Walks along imports.** Seen from a directory, an import pulls in files that are there, in the
order of its segments: of all segments before the one at which the walk ends the entry points below
them, as far as these are there, and behind them the source of the segment at the end, if there is
one. The walk ends at the first segment with a source of its name, or with neither an entry point
nor a directory below, and else behind the last segment. -/
theorem resolve_walksTo (t : FileTree) (entryPoint : String) (d : Path) (path : String) :
    Spells path (segmentsOf path) ∧
    (∀ f ∈ resolve t entryPoint d path, t.isFile f = true) ∧
    ∃ k, WalksTo t entryPoint d (segmentsOf path) k ∧
      (∀ j, WalksTo t entryPoint d (segmentsOf path) j → j = k) ∧
      resolve t entryPoint d path =
        (entryPoints entryPoint d (segmentsOf path) k).filter t.isFile ++
          (sourceAt d (segmentsOf path) k).filter t.isFile := by
  have hspells := spells_segmentsOf path
  refine ⟨hspells, fun f hf => isFile_of_mem_resolveSegments hf, ?_⟩
  obtain ⟨k, hwalk, hresolve⟩ := exists_walksTo (fun x hx => (hspells.dotless x hx).1) d
  exact ⟨k, hwalk, fun j hj => hj.eq hwalk, by rw [resolve_eq, hresolve, List.filter_append]⟩

end AddonAtlas.Import
