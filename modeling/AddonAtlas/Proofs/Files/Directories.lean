import AddonAtlas.Proofs.Files.Places
import Mathlib.Data.List.Perm.Subperm

/-!
What directories hold, and the directories below one.

The names in a directory are the last names of the places right below it, in order. Going down by
names adds them to the components of a path and to the place that it leads to.
-/

namespace AddonAtlas

open AddonAtlas.Path

namespace Path

variable {p : Path} {n : String} {ns : List String}

/-- The path that some names in a row lead to from another one. -/
def descend (p : Path) (ns : List String) : Path := ns.foldl join p

@[simp] lemma descend_nil (p : Path) : p.descend [] = p := rfl

@[simp] lemma descend_concat (p : Path) (ns : List String) (n : String) :
    p.descend (ns ++ [n]) = (p.descend ns).join n := by
  rw [descend, List.foldl_append]
  rfl

lemma components_descend (p : Path) (h : ∀ n ∈ ns, IsName n) :
    (p.descend ns).components = p.components ++ ns.map .name := by
  induction ns using List.reverseRecOn with
  | nil => simp
  | append_singleton ns n ih =>
    rw [descend_concat, components_join_name _ (h n (by simp)),
      ih fun x hx => h x (List.mem_append_left _ hx)]
    simp

lemma key_descend (p : Path) (h : ∀ n ∈ ns, IsName n) :
    (p.descend ns).key = p.key ++ ns.map ("3" ++ ·) := by
  rw [key, components_descend p h, List.map_append, List.map_map]
  rfl

end Path

namespace FileTree

variable {t : FileTree} {p : Path} {here : Place} {n : String} {ns : List String}

/-- Every file and every directory of a tree is reached by names. -/
structure WellNamed (t : FileTree) : Prop where
  files : ∀ p ∈ t.files.keys, ∀ n ∈ p, IsName n
  directories : ∀ p ∈ t.directories.toList, ∀ n ∈ p, IsName n

lemma wellNamed_empty : ({} : FileTree).WellNamed where
  files := by simp [OrdMap.empty, OrdMap.keys]
  directories p hp := by
    obtain rfl : p = [] := List.mem_singleton.1 hp
    simp

lemma mem_ancestors {p q : Place} (h : p ∈ ancestors q) : p ⊆ q := by
  obtain ⟨k, -, rfl⟩ := List.mem_map.1 h
  exact List.take_subset k q

/-- Writing a file at a place of names keeps the tree well-named. -/
lemma WellNamed.addFile (h : t.WellNamed) {place : Place} (hplace : ∀ n ∈ place, IsName n)
    (content : ByteArray) : (t.addFile place content).WellNamed where
  files p hp n hn := by
    obtain ⟨c, hc⟩ := OrdMap.mem_keys_iff.1 hp
    rw [FileTree.addFile, OrdMap.get?_insert] at hc
    split at hc
    · rename_i hplaces
      exact hplace n (hplaces ▸ hn)
    · exact h.files p (OrdMap.mem_keys_iff.2 ⟨c, hc⟩) n hn
  directories p hp n hn := by
    rcases OrdSet.mem_insertMany.1 hp with hp | hp
    · exact h.directories p hp n hn
    · exact hplace n (mem_ancestors hp hn)

lemma WellNamed.addDirectory (h : t.WellNamed) {place : Place} (hplace : ∀ n ∈ place, IsName n) :
    (t.addDirectory place).WellNamed where
  files := h.files
  directories p hp n hn := by
    rcases OrdSet.mem_insertMany.1 hp with hp | hp
    · exact h.directories p hp n hn
    · rcases List.mem_append.1 hp with hp | hp
      · exact hplace n (mem_ancestors hp hn)
      · exact hplace n (List.mem_singleton.1 hp ▸ hn)

lemma isDirectoryAt_iff : t.isDirectoryAt here = true ↔ here ∈ t.directories.toList :=
  OrdSet.contains_iff

/-! ## Directories on the way -/

lemma hasNode_iff :
    t.hasNode p = true ↔ ∃ here, t.place? p = some here ∧ (t.node? here).isSome = true := by
  unfold hasNode lookup
  cases t.place? p <;> simp

lemma node?_isSome_iff :
    (t.node? here).isSome = true ↔ t.isDirectoryAt here = true ∨ here ∈ t.files.keys := by
  rw [OrdMap.mem_keys_iff, node?]
  split
  · simp_all
  · rename_i hdir
    simp [hdir, Option.isSome_iff_exists]

lemma hasNode_of_isDirectory (h : t.isDirectory p = true) : t.hasNode p = true := by
  obtain ⟨here, hplace, hdir⟩ := isDirectory_iff.1 h
  exact hasNode_iff.2 ⟨here, hplace, node?_isSome_iff.2 (.inl hdir)⟩

lemma hasNode_of_isFile (h : t.isFile p = true) : t.hasNode p = true := by
  unfold isFile at h
  unfold hasNode
  cases hnode : t.lookup p <;> simp_all

/-- What is there and no directory is a file. -/
lemma isFile_of_hasNode (h : t.hasNode p = true) (hdir : t.isDirectory p = false) :
    t.isFile p = true := by
  unfold hasNode at h
  unfold isDirectory at hdir
  unfold isFile
  cases hnode : t.lookup p with
  | none => simp [hnode] at h
  | some node => cases node <;> simp_all

/-- A walk begins in a directory. -/
lemma isDirectoryAt_of_walk {l : List Component} {place : Place} (h : t.walk here l = some place)
    (hl : l ≠ []) : t.isDirectoryAt here = true := by
  obtain ⟨c, r, rfl⟩ := List.exists_cons_of_ne_nil hl
  by_contra hdir
  rw [Bool.not_eq_true] at hdir
  simp [walk, hdir] at h

/-- Directories stand on the way down to where a walk ends. -/
lemma isDirectoryAt_take_of_walk {l : List Component} {place : Place}
    (hhere : ∀ k < here.length, t.isDirectoryAt (here.take k) = true)
    (h : t.walk here l = some place) :
    ∀ k < place.length, t.isDirectoryAt (place.take k) = true := by
  fun_induction walk t here l with
  | case1 here =>
    obtain rfl := Option.some.inj h
    exact hhere
  | case2 | case6 => cases h
  | case3 here r hdir ih => exact ih hhere h
  | case4 here r hdir ih =>
    refine ih (fun k hk => ?_) h
    rw [List.length_dropLast] at hk
    rw [List.dropLast_eq_take, List.take_take, Nat.min_eq_left (Nat.le_of_lt hk)]
    exact hhere k (by omega)
  | case5 here r hdir s ih =>
    refine ih (fun k hk => ?_) h
    rw [List.length_append, List.length_singleton] at hk
    rw [List.take_append_of_le_length (Nat.le_of_lt_succ hk)]
    rcases Nat.lt_succ_iff_lt_or_eq.1 hk with hk | rfl
    · exact hhere k hk
    · rw [List.take_length]
      exact hdir

/-- What stands where the way to a path goes on stands in a directory. -/
lemma isDirectory_of_route {q : Path} (hroute : t.route q = t.route p ++ (Path.mk n).steps)
    (htrails : q.trails = (Path.mk n).trails) (hp : p.text ≠ "") (h : t.hasNode q = true) :
    t.isDirectory p = true := by
  obtain ⟨place, hplace, -⟩ := hasNode_iff.1 h
  rw [place?_eq t (text_ne_of_place? hplace), htrails, hroute, walk_append,
    Option.filter_eq_some_iff, Option.bind_eq_some_iff] at hplace
  obtain ⟨⟨here, hwalk, hrest⟩, htrails⟩ := hplace
  -- either a step follows, or a filler asks for a directory
  have hdir : t.isDirectoryAt here = true := by
    by_cases hsteps : (Path.mk n).steps = []
    · rw [hsteps, walk, Option.some.injEq] at hrest
      have hfill : (Path.mk n).trails = true :=
        getLast?_any_of_inner_nil hsteps (segments_ne_nil _)
      simpa [hfill, hrest] using htrails
    · exact isDirectoryAt_of_walk hrest hsteps
  refine isDirectory_iff.2 ⟨here, ?_, hdir⟩
  rw [place?_eq t hp, hwalk]
  simp [Option.filter, hdir]

/-- What stands at a joined path stands in a directory, unless what is joined is absolute. -/
lemma isDirectory_of_hasNode_join (hn : (Path.mk n).isAbsolute = false) (hp : p.text ≠ "")
    (h : t.hasNode (p.join n) = true) : t.isDirectory p = true :=
  isDirectory_of_route (route_join hn hp) (trails_join p hn) hp h

/-! ## Names in a directory -/

lemma mem_namesAt :
    n ∈ (t.namesAt here).toList ↔
      here ++ [n] ∈ t.files.keys ∨ here ++ [n] ∈ t.directories.toList := by
  have hchild (p : Place) :
      (if p.length = here.length + 1 && here.isPrefixOf p then p.getLast? else none) = some n ↔
        p = here ++ [n] := by
    simp only [Bool.and_eq_true, decide_eq_true_eq, List.isPrefixOf_iff_prefix,
      Option.ite_none_right_eq_some]
    constructor
    · rintro ⟨⟨hlen, l, rfl⟩, hlast⟩
      obtain ⟨x, rfl⟩ := List.length_eq_one_iff.1 (by simpa using hlen)
      simpa using hlast
    · rintro rfl
      simp
  simp only [namesAt, OrdSet.mem_ofList, List.mem_append, List.mem_filterMap, hchild]
  simp

lemma list?_of_place? (hplace : t.place? p = some here) (hdir : t.isDirectoryAt here = true) :
    t.list? p = some (t.namesAt here).toList := by
  rw [list?, hplace, Option.bind_some, if_pos hdir]

lemma list?_eq_some_iff {names : List String} :
    t.list? p = some names ↔ ∃ here, t.place? p = some here ∧ t.isDirectoryAt here = true ∧
      names = (t.namesAt here).toList := by
  simp only [list?, Option.bind_eq_some_iff, Option.ite_none_right_eq_some, Option.some.injEq,
    @eq_comm _ names]

lemma sorted_list? (t : FileTree) (p : Path) : ((t.list? p).getD []).Pairwise (· < ·) := by
  cases h : t.list? p with
  | none => simp
  | some names =>
    obtain ⟨here, -, -, rfl⟩ := list?_eq_some_iff.1 h
    exact NameSet.sorted _

lemma WellNamed.isName_of_mem_list? (h : t.WellNamed) (hn : n ∈ (t.list? p).getD []) :
    IsName n := by
  cases hlist : t.list? p with
  | none => simp [hlist] at hn
  | some names =>
    obtain ⟨here, -, -, rfl⟩ := list?_eq_some_iff.1 hlist
    rw [hlist, Option.getD_some] at hn
    rcases mem_namesAt.1 hn with hplace | hplace
    · exact h.files _ hplace n (by simp)
    · exact h.directories _ hplace n (by simp)

/-- The names in a directory are those where something stands. -/
lemma hasNode_iff_mem_namesAt (hplace : t.place? p = some (here ++ [n])) :
    t.hasNode p = true ↔ n ∈ (t.namesAt here).toList := by
  rw [hasNode_iff, hplace, mem_namesAt, ← isDirectoryAt_iff, or_comm, ← node?_isSome_iff]
  simp

/-- The names that a directory lists are those where something stands. -/
lemma mem_list?_iff (hp : t.isDirectory p = true) (hn : IsName n) :
    n ∈ (t.list? p).getD [] ↔ t.hasNode (p.join n) = true := by
  obtain ⟨here, hplace, hdir⟩ := isDirectory_iff.1 hp
  have hjoin : t.place? (p.join n) = some (here ++ [n]) := by
    rw [place?_join t hn (text_ne_of_place? hplace), hplace, Option.bind_some, if_pos hdir]
  rw [list?_of_place? hplace hdir, Option.getD_some, hasNode_iff_mem_namesAt hjoin]

/-! ## Directories in a row -/

/-- No more directories stand in a row than there are in the tree. -/
lemma length_le_of_isDirectoryAt (h : ∀ k ≤ ns.length, t.isDirectoryAt (here ++ ns.take k) = true) :
    ns.length < t.directories.size := by
  have hnodup : ((List.range (ns.length + 1)).map fun k => here ++ ns.take k).Nodup := by
    refine List.Nodup.map_on (fun k hk l hl hkl => ?_) List.nodup_range
    rw [List.mem_range] at hk hl
    have hlen := congrArg List.length hkl
    simp only [List.length_append, List.length_take] at hlen
    omega
  have hsub : ((List.range (ns.length + 1)).map fun k => here ++ ns.take k) ⊆
      t.directories.toList := by
    intro place hplace
    obtain ⟨k, hk, rfl⟩ := List.mem_map.1 hplace
    rw [List.mem_range] at hk
    exact isDirectoryAt_iff.1 (h k (by omega))
  have hle := (List.Nodup.subperm hnodup hsub).length_le
  simp only [List.length_map, List.length_range] at hle
  exact hle

/-- A path leads past fewer directories than there are in the tree. -/
lemma length_lt_of_place? (h : t.place? p = some here) (hdir : t.isDirectoryAt here = true) :
    here.length < t.directories.size := by
  have htake := isDirectoryAt_take_of_walk (by simp) (walk_of_place? h)
  suffices hrow : ∀ k ≤ here.length, t.isDirectoryAt ([] ++ here.take k) = true from
    length_le_of_isDirectoryAt hrow
  intro k hk
  rw [List.nil_append]
  rcases Nat.lt_or_eq_of_le hk with hk | rfl
  · exact htake k hk
  · rw [List.take_length]
    exact hdir

/-- Names lead below a directory as far as directories stand on the way. -/
lemma place?_descend (hns : ∀ n ∈ ns, IsName n) (hplace : t.place? p = some here)
    (hdirs : ∀ k < ns.length, t.isDirectoryAt (here ++ ns.take k) = true) :
    t.place? (p.descend ns) = some (here ++ ns) := by
  induction ns using List.reverseRecOn with
  | nil => simpa using hplace
  | append_singleton ns n ih =>
    have hbefore := ih (fun m hm => hns m (List.mem_append_left _ hm)) fun k hk => by
      have hdir := hdirs k (by simp; omega)
      rwa [List.take_append_of_le_length hk.le] at hdir
    have hdir := hdirs ns.length (by simp)
    rw [List.take_left] at hdir
    rw [descend_concat, place?_join t (hns n (by simp)) (text_ne_of_place? hbefore), hbefore,
      Option.bind_some, if_pos hdir, List.append_assoc]

lemma readText?_descend {text : String} (hns : ∀ n ∈ ns, IsName n) (hplace : t.place? p = some here)
    (hdirs : ∀ k < ns.length, t.isDirectoryAt (here ++ ns.take k) = true)
    (hfile : t.isDirectoryAt (here ++ ns) = false ∧
      t.files.get? (here ++ ns) = some text.toUTF8) :
    t.readText? (p.descend ns) = some text :=
  readText?_of_toUTF8
    (readBytes?_eq_some_iff.2 ⟨_, place?_descend hns hplace hdirs, hfile.1, hfile.2⟩)

end FileTree

end AddonAtlas
