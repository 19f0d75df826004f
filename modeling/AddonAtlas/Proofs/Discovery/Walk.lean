import AddonAtlas.Discovery.Walk
import AddonAtlas.Proofs.Discovery.Digest
import AddonAtlas.Proofs.Files.Directories

/-!
Which packages a discovery finds, and in which order.

A directory is searched if names lead to it from a root through plain folders. The search keeps,
level by level, the list of all searched directories of one depth, in order. A directory that is no
plain folder ends the search below it, and nothing else depends on it.
-/

namespace AddonAtlas

open AddonAtlas.Path

/-! ## Order -/

lemma compare_append_of_lt {l l' : List String} (hlen : l.length = l'.length)
    (h : compare l l' = .lt) (r r' : List String) : compare (l ++ r) (l' ++ r') = .lt := by
  induction l generalizing l' with
  | nil =>
    obtain rfl := List.eq_nil_of_length_eq_zero hlen.symm
    cases h
  | cons a l ih =>
    cases l' with
    | nil => cases hlen
    | cons b l' =>
      rw [List.cons_append, List.cons_append, List.compare_cons_cons]
      rw [List.compare_cons_cons] at h
      cases hab : compare a b with
      | lt => rfl
      | eq =>
        rw [hab] at h
        exact ih (Nat.succ.inj hlen) h
      | gt =>
        rw [hab] at h
        cases h

lemma compare_concat_of_lt (l : List String) {a b : String} (h : a < b) :
    compare (l ++ [a]) (l ++ [b]) = .lt := by
  have hab : compare a b = .lt := compareOfLessAndEq_eq_lt.2 h
  induction l with
  | nil =>
    rw [List.nil_append, List.nil_append, List.compare_cons_cons, hab]
    rfl
  | cons x l ih =>
    rw [List.cons_append, List.cons_append, List.compare_cons_cons, Std.ReflOrd.compare_self]
    exact ih

/-- A searched directory: the root that names lead to it from, and where that stands among all
roots. -/
structure Find where
  position : Nat
  root : Path
  names : List String

namespace Find

def directory (f : Find) : Path := f.root.descend f.names

/-- The directory of a name in a searched one. -/
def down (f : Find) (n : String) : Find := { f with names := f.names ++ [n] }

/-- Directories come by their depth, then by the position of their root, then in the order of their
paths. -/
def Before (f g : Find) : Prop :=
  f.names.length < g.names.length ∨ f.names.length = g.names.length ∧
    (f.position < g.position ∨ f.position = g.position ∧
      compare f.directory.key g.directory.key = .lt)

lemma directory_down (f : Find) (n : String) : (f.down n).directory = f.directory.join n :=
  descend_concat f.root f.names n

/-- What is found comes in the order of the directories. -/
def FoundBefore (x y : Find × Package) : Prop := x.1.Before y.1

instance : Std.Irrefl FoundBefore := ⟨fun x h => by
  simp [FoundBefore, Before, Std.ReflCmp.compare_self] at h⟩

instance : Std.Antisymm FoundBefore := ⟨fun x y hfg hgf => by
  rcases hfg with h | ⟨h, h' | ⟨h', hlt⟩⟩ <;> rcases hgf with k | ⟨k, k' | ⟨k', klt⟩⟩ <;>
    try omega
  rw [Std.OrientedCmp.gt_of_lt hlt] at klt
  cases klt⟩

end Find

namespace Site

variable {s t : Site} {roots : List Path} {f g : Find} {level : List Find} {d : Nat}

/-- The directories that are searched below a root, by the names that lead to them. -/
inductive Searched (s : Site) (root : Path) : List String → Prop
  | root : Searched s root []
  | down {ns : List String} {n : String} : Searched s root ns →
      s.assemble (root.descend ns) = .ok .folder → IsName n →
      s.discovery.folderBlacklist.contains n = false →
      s.files.isDirectory (root.descend (ns ++ [n])) = true → Searched s root (ns ++ [n])

/-- What is found: the searched directories that are packages, as far down as the search goes,
each one once and in order. -/
structure Finds (s : Site) (roots : List Path) (found : List (Find × Package)) : Prop where
  mem : ∀ f p, (f, p) ∈ found ↔ roots[f.position]? = some f.root ∧ s.Searched f.root f.names ∧
    s.reaches f.names.length = true ∧ s.assemble f.directory = .ok (.package p)
  ordered : found.Pairwise Find.FoundBefore

/-! ## Searched directories -/

lemma package?_eq_some_iff {dir : Path} {p : Package} :
    s.package? dir = some p ↔ s.assemble dir = .ok (.package p) := by
  unfold package?
  split <;> simp_all

lemma isDirectory_of_folder {dir : Path} (h : s.assemble dir = .ok .folder) :
    s.files.isDirectory dir = true := by
  by_contra hdir
  rw [Bool.not_eq_true] at hdir
  simp [assemble, hdir] at h

lemma reaches_of_le {m n : Nat} (h : s.reaches n = true) (hmn : m ≤ n) : s.reaches m = true := by
  unfold reaches at h ⊢
  split at h <;> simp_all
  omega

section

variable {root : Path} {ns : List String}

lemma Searched.isName (h : s.Searched root ns) : ∀ n ∈ ns, IsName n := by
  induction h with
  | root => simp
  | down h hfolder hn hlisted hdir ih =>
    intro x hx
    rcases List.mem_append.1 hx with hx | hx
    · exact ih x hx
    · exact List.mem_singleton.1 hx ▸ hn

lemma Searched.take (h : s.Searched root ns) (k : Nat) : s.Searched root (ns.take k) := by
  induction h with
  | root => simpa using Searched.root
  | @down ns n h hfolder hn hlisted hdir ih =>
    by_cases hk : k ≤ ns.length
    · rwa [List.take_append_of_le_length hk]
    · rw [List.take_of_length_le (by simp; omega)]
      exact h.down hfolder hn hlisted hdir

/-- A searched directory stands below the place of its root, as all on the way to it do. -/
lemma Searched.place? (h : s.Searched root ns)
    (hdir : s.files.isDirectory (root.descend ns) = true) :
    ∃ top, s.files.place? (root.descend ns) = some (top ++ ns) ∧
      ∀ k ≤ ns.length, s.files.isDirectoryAt (top ++ ns.take k) = true := by
  induction h with
  | root =>
    obtain ⟨here, hplace, hhere⟩ := FileTree.isDirectory_iff.1 hdir
    exact ⟨here, by simpa using hplace, by simpa using hhere⟩
  | @down ns n h hfolder hn hlisted hdir' ih =>
    obtain ⟨top, hplace, hall⟩ := ih (isDirectory_of_folder hfolder)
    have hhere : s.files.isDirectoryAt (top ++ ns) = true := by
      simpa using hall ns.length (Nat.le_refl _)
    obtain ⟨here, hjoin, hdir⟩ := FileTree.isDirectory_iff.1 hdir
    rw [descend_concat, FileTree.place?_join _ hn (FileTree.text_ne_of_place? hplace), hplace,
      Option.bind_some, if_pos hhere, Option.some.injEq] at hjoin
    have hhere' : here = top ++ (ns ++ [n]) := by rw [← hjoin, List.append_assoc]
    refine ⟨top, ?_, fun k hk => ?_⟩
    · rw [descend_concat, FileTree.place?_join _ hn (FileTree.text_ne_of_place? hplace), hplace,
        Option.bind_some, if_pos hhere, hjoin, hhere']
    · by_cases hk' : k ≤ ns.length
      · rw [List.take_append_of_le_length hk']
        exact hall k hk'
      · rw [List.take_of_length_le (by simp; omega), ← hhere']
        exact hdir

/-- The search ends: no directory is deeper down than there are directories. -/
lemma Searched.length_le (h : s.Searched root ns) : ns.length ≤ s.files.directories.size := by
  cases h with
  | root => exact Nat.zero_le _
  | down h hfolder hn hlisted hdir =>
    obtain ⟨top, -, hall⟩ := (h.down hfolder hn hlisted hdir).place? hdir
    exact Nat.le_of_lt (FileTree.length_le_of_isDirectoryAt hall)

end

/-! ## Levels -/

/-- The directories that are searched next, below a searched one. -/
def below (s : Site) (f : Find) : List Find :=
  match s.assemble f.directory with
  | .ok .folder =>
    let names := ((s.files.list? f.directory).getD []).filter fun n =>
      !s.discovery.folderBlacklist.contains n
    (names.filter fun n => s.files.isDirectory (f.directory.join n)).map f.down
  | _ => []

/-- The package of a searched directory, if it is one. -/
def found? (s : Site) (f : Find) : Option (Find × Package) :=
  (s.package? f.directory).map fun p => (f, p)

/-- The search, as a list of what is found. -/
def searchFrom (s : Site) : (fuel depth : Nat) → List Find → List (Find × Package)
  | 0, _, _ => []
  | n + 1, depth, level =>
    if level.isEmpty || !s.reaches depth then []
    else level.filterMap s.found? ++ searchFrom s n (depth + 1) (level.flatMap s.below)

lemma mem_filterMap_found? {p : Package} : (f, p) ∈ level.filterMap s.found? ↔
    f ∈ level ∧ s.assemble f.directory = .ok (.package p) := by
  simp only [List.mem_filterMap, found?, Option.map_eq_some_iff, Prod.mk.injEq,
    package?_eq_some_iff]
  constructor
  · rintro ⟨g, hg, q, hq, rfl, rfl⟩
    exact ⟨hg, hq⟩
  · rintro ⟨hf, hp⟩
    exact ⟨f, hf, p, hp, rfl, rfl⟩

lemma map_directory_below (s : Site) (f : Find) :
    (s.below f).map Find.directory = s.next f.directory := by
  unfold below next
  cases s.assemble f.directory with
  | error e => rfl
  | ok c =>
    cases c with
    | folder =>
      simp only [subdirectories, List.map_map, List.filter_map]
      exact List.map_congr_left fun n _ => Find.directory_down f n
    | package | rejected => rfl

lemma mem_below (hnames : s.files.WellNamed) :
    g ∈ s.below f ↔ s.assemble f.directory = .ok .folder ∧ ∃ n, IsName n ∧
      s.discovery.folderBlacklist.contains n = false ∧
      s.files.isDirectory (f.directory.join n) = true ∧ g = f.down n := by
  unfold below
  split
  · rename_i hfolder
    simp only [hfolder, true_and, List.mem_map, List.mem_filter, Bool.not_eq_true']
    constructor
    · rintro ⟨n, ⟨⟨hn, hlisted⟩, hdir⟩, rfl⟩
      exact ⟨n, hnames.isName_of_mem_list? hn, hlisted, hdir, rfl⟩
    · rintro ⟨n, hn, hlisted, hdir, rfl⟩
      exact ⟨n, ⟨⟨(FileTree.mem_list?_iff (isDirectory_of_folder hfolder) hn).2
        (FileTree.hasNode_of_isDirectory hdir), hlisted⟩, hdir⟩, rfl⟩
  · rename_i hfolder
    simp only [List.not_mem_nil, false_iff]
    exact fun h => hfolder h.1

/-- The searched directories of one depth, in order. -/
structure Level (s : Site) (roots : List Path) (d : Nat) (level : List Find) : Prop where
  mem : ∀ f, f ∈ level ↔
    roots[f.position]? = some f.root ∧ s.Searched f.root f.names ∧ f.names.length = d
  ordered : level.Pairwise Find.Before

lemma Level.start (s : Site) (roots : List Path) :
    s.Level roots 0 (roots.mapIdx fun i root => ⟨i, root, []⟩) where
  mem f := by
    obtain ⟨i, root, ns⟩ := f
    simp only [List.mem_mapIdx, Find.mk.injEq, List.length_eq_zero_iff]
    constructor
    · rintro ⟨k, hk, rfl, rfl, rfl⟩
      exact ⟨List.getElem?_eq_getElem hk, .root, rfl⟩
    · rintro ⟨hroot, -, rfl⟩
      obtain ⟨hk, rfl⟩ := List.getElem?_eq_some_iff.1 hroot
      exact ⟨i, hk, rfl, rfl, rfl⟩
  ordered := by
    rw [List.pairwise_iff_getElem]
    intro i j hi hj hij
    simp only [List.getElem_mapIdx]
    exact .inr ⟨rfl, .inl hij⟩

lemma key_down {n : String} (f : Find) (hn : IsName n) :
    (f.down n).directory.key = f.directory.key ++ ["3" ++ n] := by
  rw [Find.directory_down, key, components_join_name _ hn, List.map_append]
  rfl

lemma ordered_below (hnames : s.files.WellNamed) (f : Find) :
    (s.below f).Pairwise Find.Before := by
  unfold below
  split
  · rw [List.pairwise_map]
    have hsorted : ((s.files.list? f.directory).getD []).Pairwise fun n m =>
        (f.down n).Before (f.down m) := by
      refine (FileTree.sorted_list? s.files f.directory).imp_of_mem fun {n m} hn hm hnm =>
        .inr ⟨by simp [Find.down], .inr ⟨rfl, ?_⟩⟩
      have hlt : "3" ++ n < "3" ++ m := by
        rw [String.lt_iff_toList_lt] at hnm ⊢
        simpa using hnm
      rw [key_down f (hnames.isName_of_mem_list? hn), key_down f (hnames.isName_of_mem_list? hm)]
      exact compare_concat_of_lt _ hlt
    exact (hsorted.filter _).filter _
  · exact .nil

/-- What stands below directories of one depth is in order if they are. -/
lemma before_down (h : f.Before g) (hlen : f.names.length = g.names.length)
    (hkeys : f.position = g.position → f.directory.key.length = g.directory.key.length)
    {n m : String} (hn : IsName n) (hm : IsName m) : (f.down n).Before (g.down m) := by
  have hdown : (f.down n).names.length = (g.down m).names.length := by simp [Find.down, hlen]
  rcases h with h | ⟨-, h | ⟨h, hlt⟩⟩
  · omega
  · exact .inr ⟨hdown, .inl h⟩
  · refine .inr ⟨hdown, .inr ⟨h, ?_⟩⟩
    rw [key_down f hn, key_down g hm]
    exact compare_append_of_lt (hkeys h) hlt _ _

/-- The next level. -/
lemma Level.next (hnames : s.files.WellNamed) (h : s.Level roots d level) :
    s.Level roots (d + 1) (level.flatMap s.below) where
  mem f := by
    simp only [List.mem_flatMap, mem_below hnames]
    constructor
    · rintro ⟨g, hg, hfolder, n, hn, hlisted, hdir, rfl⟩
      obtain ⟨hroot, hsearched, hlen⟩ := (h.mem g).1 hg
      refine ⟨hroot, hsearched.down hfolder hn hlisted ?_, by simp [Find.down, hlen]⟩
      rwa [descend_concat]
    · obtain ⟨i, root, ns⟩ := f
      rintro ⟨hroot, hsearched, hlen⟩
      cases hsearched with
      | root => simp at hlen
      | @down ns n hsearched hfolder hn hlisted hdir =>
        rw [descend_concat] at hdir
        exact ⟨⟨i, root, ns⟩, (h.mem _).2 ⟨hroot, hsearched, by simpa using hlen⟩, hfolder, n, hn,
          hlisted, hdir, rfl⟩
  ordered := by
    refine List.pairwise_flatMap.2 ⟨fun f _ => ordered_below hnames f, ?_⟩
    refine h.ordered.imp_of_mem fun {f g} hf hg hfg x hx y hy => ?_
    obtain ⟨-, n, hn, -, -, rfl⟩ := (mem_below hnames).1 hx
    obtain ⟨-, m, hm, -, -, rfl⟩ := (mem_below hnames).1 hy
    obtain ⟨hfroot, hfsearched, hflen⟩ := (h.mem f).1 hf
    obtain ⟨hgroot, hgsearched, hglen⟩ := (h.mem g).1 hg
    refine before_down hfg (hflen.trans hglen.symm) (fun hposition => ?_) hn hm
    rw [hposition, hgroot, Option.some.injEq] at hfroot
    rw [Find.directory, Find.directory, key_descend _ hfsearched.isName,
      key_descend _ hgsearched.isName, hfroot]
    simp [hflen, hglen]

/-! ## The search -/

lemma discoverFrom_eq_searchFrom (s : Site) (n d : Nat) (level : List Find) :
    s.discoverFrom n d (level.map Find.directory) = (s.searchFrom n d level).map Prod.snd := by
  induction n generalizing d level with
  | zero => rfl
  | succ n ih =>
    have hnext : (level.map Find.directory).flatMap s.next =
        (level.flatMap s.below).map Find.directory := by
      simp only [List.flatMap_map, List.map_flatMap, map_directory_below]
    have hhere : (level.map Find.directory).filterMap s.package? =
        (level.filterMap s.found?).map Prod.snd := by
      rw [List.filterMap_map, List.map_filterMap]
      refine List.filterMap_congr fun f _ => ?_
      rw [found?, Option.map_map]
      exact Option.map_id'.symm
    rw [discoverFrom, searchFrom, List.isEmpty_map, hnext, hhere, ih]
    split
    · rfl
    · rw [List.map_append]

lemma mem_searchFrom (hnames : s.files.WellNamed) {n : Nat} (hlevel : s.Level roots d level)
    (hn : s.files.directories.size < d + n) {p : Package} :
    (f, p) ∈ s.searchFrom n d level ↔
      roots[f.position]? = some f.root ∧ s.Searched f.root f.names ∧
        s.reaches f.names.length = true ∧ s.assemble f.directory = .ok (.package p) ∧
        d ≤ f.names.length := by
  induction n generalizing d level with
  | zero =>
    simp only [searchFrom, List.not_mem_nil, false_iff]
    rintro ⟨-, hsearched, -, -, hd⟩
    have := hsearched.length_le
    omega
  | succ n ih =>
    rw [searchFrom]
    split
    · rename_i hstop
      simp only [List.not_mem_nil, false_iff]
      rintro ⟨hroot, hsearched, hreaches, -, hd⟩
      rcases Bool.or_eq_true_iff.1 hstop with hempty | hdeep
      · -- what leads to a deeper directory would be on this level
        have hmem : (⟨f.position, f.root, f.names.take d⟩ : Find) ∈ level :=
          (hlevel.mem _).2 ⟨hroot, hsearched.take d, by simpa using hd⟩
        rw [List.isEmpty_iff.1 hempty] at hmem
        cases hmem
      · rw [reaches_of_le hreaches hd] at hdeep
        cases hdeep
    · rename_i hstop
      have hreaches : s.reaches d = true := by simp_all
      rw [List.mem_append, mem_filterMap_found?, hlevel.mem, ih (hlevel.next hnames) (by omega)]
      constructor
      · rintro (⟨⟨hroot, hsearched, hlen⟩, hpackage⟩ | ⟨hroot, hsearched, hdeep, hpackage, hlen⟩)
        · exact ⟨hroot, hsearched, hlen ▸ hreaches, hpackage, Nat.le_of_eq hlen.symm⟩
        · exact ⟨hroot, hsearched, hdeep, hpackage, Nat.le_of_succ_le hlen⟩
      · rintro ⟨hroot, hsearched, hdeep, hpackage, hlen⟩
        rcases Nat.eq_or_lt_of_le hlen with hlen | hlen
        · exact .inl ⟨⟨hroot, hsearched, hlen.symm⟩, hpackage⟩
        · exact .inr ⟨hroot, hsearched, hdeep, hpackage, hlen⟩

lemma ordered_searchFrom (hnames : s.files.WellNamed) (n : Nat) (hlevel : s.Level roots d level) :
    (s.searchFrom n d level).Pairwise Find.FoundBefore ∧
      ∀ x ∈ s.searchFrom n d level, d ≤ x.1.names.length := by
  induction n generalizing d level with
  | zero => simp [searchFrom]
  | succ n ih =>
    obtain ⟨hordered, hdepth⟩ := ih (hlevel.next hnames)
    have hhere : ∀ x ∈ level.filterMap s.found?, x.1.names.length = d := fun (f, _) hx =>
      ((hlevel.mem f).1 (mem_filterMap_found?.1 hx).1).2.2
    have hlevel : (level.filterMap s.found?).Pairwise Find.FoundBefore := by
      refine hlevel.ordered.filterMap _ fun f g hfg x hx y hy => ?_
      obtain ⟨-, -, rfl⟩ := Option.map_eq_some_iff.1 hx
      obtain ⟨-, -, rfl⟩ := Option.map_eq_some_iff.1 hy
      exact hfg
    rw [searchFrom]
    split
    · simp
    · refine ⟨List.pairwise_append.2 ⟨hlevel, hordered, fun x hx y hy => ?_⟩, fun x hx => ?_⟩
      · have := hhere x hx
        have := hdepth y hy
        exact .inl (by omega)
      · rcases List.mem_append.1 hx with hx | hx
        · exact Nat.le_of_eq (hhere x hx).symm
        · exact Nat.le_of_succ_le (hdepth x hx)

lemma finds_searchFrom (hnames : s.files.WellNamed) {n : Nat}
    (hn : s.files.directories.size < n) :
    s.Finds roots (s.searchFrom n 0 (roots.mapIdx fun i root => ⟨i, root, []⟩)) where
  mem f p := by
    rw [mem_searchFrom hnames (Level.start s roots) (by omega)]
    simp
  ordered := (ordered_searchFrom hnames n (Level.start s roots)).1

lemma Finds.unique {found found' : List (Find × Package)} (h : s.Finds roots found)
    (h' : s.Finds roots found') : found = found' :=
  h.ordered.eq_of_mem_iff h'.ordered fun (f, p) => by rw [h.mem, h'.mem]

lemma discoverFrom_eq_of_finds (hnames : s.files.WellNamed) {found : List (Find × Package)}
    (h : s.Finds roots found) {n : Nat} (hn : s.files.directories.size < n) :
    s.discoverFrom n 0 roots = found.map Prod.snd := by
  have hroots : (roots.mapIdx fun i root => (⟨i, root, []⟩ : Find)).map Find.directory = roots :=
    List.ext_getElem? fun i => by cases h : roots[i]? <;> simp [Find.directory, h]
  have hsearch := discoverFrom_eq_searchFrom s n 0 (roots.mapIdx fun i root => ⟨i, root, []⟩)
  rwa [hroots, (finds_searchFrom hnames hn).unique h] at hsearch

/-! ## Closed directories -/

/-- Two sites that look for packages in the same way, and differ only in directories that are no
plain folder in either of them. -/
structure AgreeBesides (s t : Site) (roots : List Path) (closed : Path → Bool) : Prop where
  blacklist : t.discovery.folderBlacklist = s.discovery.folderBlacklist
  maxDepth : t.discovery.maxDepth = s.discovery.maxDepth
  noFolder : ∀ dir, closed dir = true →
    s.assemble dir ≠ .ok .folder ∧ t.assemble dir ≠ .ok .folder
  same : ∀ root ∈ roots, ∀ ns, s.Searched root ns ∨ t.Searched root ns →
    closed (root.descend ns) = false →
    t.files.isDirectory (root.descend ns) = s.files.isDirectory (root.descend ns) ∧
      t.assemble (root.descend ns) = s.assemble (root.descend ns)

lemma AgreeBesides.symm {closed : Path → Bool} (h : s.AgreeBesides t roots closed) :
    t.AgreeBesides s roots closed where
  blacklist := h.blacklist.symm
  maxDepth := h.maxDepth.symm
  noFolder dir hdir := (h.noFolder dir hdir).symm
  same root hroot ns hsearched hopen :=
    let ⟨hdir, hassemble⟩ := h.same root hroot ns hsearched.symm hopen
    ⟨hdir.symm, hassemble.symm⟩

lemma AgreeBesides.searched {closed : Path → Bool} (h : s.AgreeBesides t roots closed) {root : Path}
    (hroot : root ∈ roots) {ns : List String} (hs : s.Searched root ns)
    (hopen : closed (root.descend ns) = false) : t.Searched root ns := by
  induction hs with
  | root => exact .root
  | @down ns n hs hfolder hn hlisted hdir ih =>
    have hopen' : closed (root.descend ns) = false := by
      by_contra hclosed
      exact (h.noFolder _ (by simpa using hclosed)).1 hfolder
    refine (ih hopen').down ?_ hn (h.blacklist ▸ hlisted) ?_
    · rw [(h.same root hroot ns (.inl hs) hopen').2, hfolder]
    · rw [(h.same root hroot _ (.inl (hs.down hfolder hn hlisted hdir)) hopen).1, hdir]

lemma AgreeBesides.mem_of_mem {closed : Path → Bool} (h : s.AgreeBesides t roots closed)
    {found found' : List (Find × Package)} (hs : s.Finds roots found) (ht : t.Finds roots found')
    {p : Package} (hopen : closed f.directory = false) (hf : (f, p) ∈ found) : (f, p) ∈ found' := by
  obtain ⟨hroot, hsearched, hreaches, hpackage⟩ := (hs.mem f p).1 hf
  have hmem : f.root ∈ roots := List.mem_of_getElem? hroot
  have hsame := (h.same _ hmem f.names (.inl hsearched) hopen).2
  refine (ht.mem f p).2 ⟨hroot, h.searched hmem hsearched hopen, ?_, ?_⟩
  · rw [reaches, h.maxDepth]
    exact hreaches
  · rw [Find.directory, hsame]
    exact hpackage

/-- A package in a folder. -/
def saleTree : FileTree :=
  (({} : FileTree).addFile ["addons", "sale", "__manifest__.py"] hello.toUTF8).addFile
    ["addons", "sale", "__init__.py"] "".toUTF8

lemma place?_saleTree : saleTree.place? ⟨"addons"⟩ = some ["addons"] :=
  (FileTree.place?_of_isName rfl (by decide)).trans (if_pos (by decide +kernel))

lemma place?_sale :
    saleTree.place? ((Path.mk "addons").descend ["sale"]) = some ["addons", "sale"] :=
  FileTree.place?_descend (by decide) place?_saleTree (by decide +kernel)

lemma isDirectory_sale : saleTree.isDirectory ((Path.mk "addons").descend ["sale"]) = true :=
  FileTree.isDirectory_iff.2 ⟨_, place?_sale, by decide +kernel⟩

lemma readText?_sale {n text : String} (hn : IsName n)
    (hfile : saleTree.isDirectoryAt ["addons", "sale", n] = false ∧
      saleTree.files.get? ["addons", "sale", n] = some text.toUTF8) :
    saleTree.readText? (((Path.mk "addons").descend ["sale"]).join n) = some text := by
  have hplace : saleTree.place? (((Path.mk "addons").descend ["sale"]).join n) =
      some ["addons", "sale", n] := by
    rw [FileTree.place?_join _ hn (FileTree.text_ne_of_place? place?_sale), place?_sale,
      Option.bind_some, if_pos (by decide +kernel)]
    rfl
  exact FileTree.readText?_of_toUTF8
    (FileTree.readBytes?_eq_some_iff.2 ⟨_, hplace, hfile.1, hfile.2⟩)

/-- The folder has no manifest. -/
lemma assemble_addons : (quietSite.withTree saleTree).assemble ⟨"addons"⟩ = .ok .folder := by
  have hdirectory : (quietSite.withTree saleTree).files.isDirectory ⟨"addons"⟩ = true :=
    FileTree.isDirectory_iff.2 ⟨_, place?_saleTree, by decide +kernel⟩
  have hfile : saleTree.isFile ((Path.mk "addons").join "__manifest__.py") = false := by
    rw [FileTree.isFile, FileTree.lookup, FileTree.place?_join _ (by decide) (by decide),
      place?_saleTree]
    decide +kernel
  have hmanifests : (quietSite.withTree saleTree).manifestsIn ⟨"addons"⟩ = [] := by
    have hnone : [(Path.mk "addons").join "__manifest__.py"].filter saleTree.isFile = [] := by
      simp [hfile]
    exact hnone
  simp [assemble, hdirectory, hmanifests]

lemma exists_assemble_sale : ∃ p, (quietSite.withTree saleTree).assemble
    ((Path.mk "addons").descend ["sale"]) = .ok (.package p) := by
  set s := quietSite.withTree saleTree
  set dir := (Path.mk "addons").descend ["sale"]
  have hmanifest : s.files.readText? (dir.join "__manifest__.py") = some hello :=
    readText?_sale (by decide) (by decide +kernel)
  have hentry : s.files.readText? (dir.join "__init__.py") = some "" :=
    readText?_sale (by decide) (by decide +kernel)
  have hmanifests : s.manifestsIn dir = [dir.join "__manifest__.py"] := by
    have hself : [dir.join "__manifest__.py"].filter s.files.isFile =
        [dir.join "__manifest__.py"] :=
      List.filter_eq_self.2 (by simpa using FileTree.isFile_of_readText? hmanifest)
    exact hself
  obtain ⟨a, ha⟩ : ∃ a, s.readManifests dir (s.manifestsIn dir) = .ok a := by
    have hone (p : Package) :
        s.readManifest p (dir.join "__manifest__.py") = .ok (p.addManifest []) := by
      rw [readManifest, hmanifest]
      dsimp only
      rw [readManifest_hello]
    rw [hmanifests, readManifests, List.foldlM_cons, hone]
    exact ⟨_, rfl⟩
  obtain ⟨digest, hassemble⟩ := Site.exists_assemble isDirectory_sale (by simp [hmanifests])
    (FileTree.isFile_of_readText? hentry) ha (if_pos rfl) rfl
  exact ⟨_, hassemble⟩

end Site

end AddonAtlas
