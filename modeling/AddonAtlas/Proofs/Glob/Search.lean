import AddonAtlas.Glob.Search
import AddonAtlas.Proofs.Files.Directories
import Mathlib.Tactic.Ring

/-!
What a search for a path glob comes to.

A search goes through directories and finds only what stands there. So two trees are searched alike
if what the search finds in each of them stands in the other one, too: where the trees differ,
nothing is found in either.
-/

namespace AddonAtlas.PathGlob

open FileTree AddonAtlas.Path

variable {t : FileTree} {dir p f : Path} {name : String} {here : Place}

/-! ## Children -/

lemma lead_steps_of_isHere (h : isHere dir = true) : dir.lead = [.here] ∧ dir.steps = [] := by
  have hkey : dir.key = (Path.mk ".").key := by simpa [isHere] using h
  obtain ⟨hlead, hsteps⟩ := lead_steps_of_key hkey
  rw [hlead, hsteps, steps_dot]
  refine ⟨?_, rfl⟩
  have hseg : (Path.mk ".").segments = ["."] := segments_of_not_mem (by decide)
  simp [lead, hseg, isAbsolute]

/-- A child goes on where its directory leads to. -/
lemma route_child (t : FileTree) (hname : (Path.mk name).isAbsolute = false)
    (hdir : dir.text ≠ "") :
    t.route (child dir name) = t.route dir ++ (Path.mk name).steps ∧
      (child dir name).trails = (Path.mk name).trails := by
  unfold child
  split
  · rename_i hhere
    obtain ⟨hlead, hsteps⟩ := lead_steps_of_isHere hhere
    have habs : dir.isAbsolute = false := by
      rw [← Bool.not_eq_true, isAbsolute_iff, hlead]
      simp
    rw [route, route, start, start, hname, habs, hsteps, List.append_nil]
    exact ⟨rfl, rfl⟩
  · exact ⟨route_join hname hdir, trails_join dir hname⟩

lemma text_child_ne (hname : name ≠ "") : (child dir name).text ≠ "" := by
  unfold child
  split
  · exact hname
  · exact text_join_ne (.inr hname)

lemma place?_child (hn : IsName name) (hplace : t.place? dir = some here)
    (hdir : t.isDirectoryAt here = true) : t.place? (child dir name) = some (here ++ [name]) := by
  obtain ⟨hroute, htrails⟩ := route_child t (isAbsolute_of_isName hn) (text_ne_of_place? hplace)
  rw [steps_of_isName hn] at hroute
  rw [place?_of_route hroute (htrails.trans (trails_of_isName hn)) (text_ne_of_place? hplace)
    (text_child_ne hn.1), hplace, Option.bind_some, if_pos hdir]

/-- What stands at a child stands in a directory. -/
lemma isDirectory_of_hasNode_child (hname : (Path.mk name).isAbsolute = false)
    (hdir : dir.text ≠ "") (h : t.hasNode (child dir name) = true) : t.isDirectory dir = true :=
  isDirectory_of_route (route_child t hname hdir).1 (route_child t hname hdir).2 hdir h

lemma text_ne_of_hasNode (h : t.hasNode p = true) : p.text ≠ "" := by
  obtain ⟨place, hplace, -⟩ := hasNode_iff.1 h
  exact text_ne_of_place? hplace

namespace Search

variable {s t : Search} {n m : Nat} {c : Component} {cs rest : List Component} {dir p f : Path}

/-- The matches at a path for what is left of a pattern. -/
def reach (s : Search) (n : Nat) (rest : List Component) (p : Path) : List Path :=
  if rest.isEmpty then s.found p else s.below n rest p

/-- The names of the directory itself and of the one above it, as far as a pattern matches them. -/
def dots (c : Component) : List String :=
  if c.startsWithDot then ["..", "."].filter c.matchesName else []

lemma below_text (h : c.text? = some name) (n : Nat) (rest : List Component) (dir : Path) :
    s.below (n + 1) (c :: rest) dir =
      if (if name = "." || name = ".." then s.tree.isDirectory dir
        else s.tree.hasNode (child dir name)) then s.reach n rest (child dir name) else [] := by
  simp only [below, h, reach]

lemma below_names (h : c.text? = none) (hdir : s.tree.isDirectory dir = true) (n : Nat)
    (rest : List Component) :
    s.below (n + 1) (c :: rest) dir =
      (dots c).flatMap (fun name => s.reach n rest (dir.join name)) ++
        ((s.tree.list? dir).getD []).flatMap fun name => s.visit n c rest (child dir name) := by
  obtain ⟨here, hplace, hat⟩ := isDirectory_iff.1 hdir
  simp only [below, h, hdir, list?_of_place? hplace hat, reach, dots, Option.getD_some]

lemma below_of_not_isDirectory (h : c.text? = none) (hdir : s.tree.isDirectory dir = false)
    (n : Nat) (rest : List Component) : s.below n (c :: rest) dir = [] := by
  cases n with
  | zero => simp [below]
  | succ n => simp [below, h, hdir]

lemma matched_succ (n : Nat) (c : Component) (rest : List Component) (p : Path) :
    s.matched (n + 1) c rest p =
      if p.fileName?.any c.matchesName then s.reach n rest p else [] := by
  simp only [matched, reach]

lemma visit_deep (n : Nat) (rest : List Component) (p : Path) :
    s.visit (n + 1) .deep rest p =
      (match rest.dropWhile Component.isDeep with
        | [] => if s.tree.isDirectory p then [p] else []
        | c :: r => s.matched n c r p) ++
      if s.tree.isDirectory p then s.below n (.deep :: rest.dropWhile Component.isDeep) p
        else [] := by
  cases h : rest.dropWhile Component.isDeep <;> simp only [visit, h]

lemma visit_plain (n : Nat) (tokens : List Token) (rest : List Component) (p : Path) :
    s.visit (n + 1) (.plain tokens) rest p = s.matched n (.plain tokens) rest p := by
  simp only [visit]

/-! ## What is found -/

/-- Components that stand for no absolute path. -/
def Relative (cs : List Component) : Prop :=
  ∀ c ∈ cs, ∀ name, c.text? = some name → (Path.mk name).isAbsolute = false

lemma Relative.tail (h : Relative (c :: cs)) : Relative cs := fun d hd =>
  h d (List.mem_cons_of_mem c hd)

lemma Relative.deep (h : Relative cs) : Relative (.deep :: cs.dropWhile Component.isDeep) := by
  intro c hc name hname
  rcases List.mem_cons.1 hc with rfl | hc
  · cases hname
  · exact h c (List.dropWhile_sublist _ |>.subset hc) name hname

lemma Relative.of_dropWhile (h : Relative cs) (hcs : cs.dropWhile Component.isDeep = c :: rest) :
    Relative rest := by
  have hdeep := h.deep
  rw [hcs] at hdeep
  exact hdeep.tail.tail

/-- The paths that a search comes to from a directory. -/
inductive Comes (s : Search) (dir : Path) : Path → Prop
  | node {name : String} : (Path.mk name).isAbsolute = false →
      s.tree.hasNode (child dir name) = true → Comes s dir (child dir name)
  | here {name : String} : name = "." ∨ name = ".." → s.tree.isDirectory dir = true →
      isHere dir = true → Comes s dir ⟨name⟩
  | dots {name : String} : name = "." ∨ name = ".." → s.tree.isDirectory dir = true →
      Comes s dir (dir.join name)

lemma mem_reach (h : f ∈ s.reach n rest p) : f = p ∨ f ∈ s.below n rest p := by
  unfold reach at h
  split at h
  · unfold found at h
    split at h
    · cases h
    · exact .inl (List.mem_singleton.1 h)
  · exact .inr h

lemma mem_matched (h : f ∈ s.matched n c rest p) : f = p ∨ ∃ k < n, f ∈ s.below k rest p := by
  cases n with
  | zero => simp [matched] at h
  | succ n =>
    rw [matched_succ] at h
    split at h
    · exact (mem_reach h).imp_right fun h => ⟨n, Nat.lt_succ_self n, h⟩
    · cases h

lemma mem_visit (hrest : Relative rest) (h : f ∈ s.visit n c rest p) :
    f = p ∨ ∃ k < n, ∃ cs, Relative cs ∧ f ∈ s.below k cs p := by
  cases n with
  | zero => simp [visit] at h
  | succ n =>
    have hmatched {c : Component} {rest : List Component} (hrest : Relative rest)
        (h : f ∈ s.matched n c rest p) :
        f = p ∨ ∃ k < n + 1, ∃ cs, Relative cs ∧ f ∈ s.below k cs p :=
      (mem_matched h).imp_right fun ⟨k, hk, h⟩ => ⟨k, Nat.lt_succ_of_lt hk, rest, hrest, h⟩
    cases c with
    | plain tokens =>
      rw [visit_plain] at h
      exact hmatched hrest h
    | deep =>
      rw [visit_deep, List.mem_append] at h
      rcases h with h | h
      · split at h
        · split at h
          · exact .inl (List.mem_singleton.1 h)
          · cases h
        · rename_i hdrop
          exact hmatched (hrest.of_dropWhile hdrop) h
      · split at h
        · exact .inr ⟨n, Nat.lt_succ_self n, _, hrest.deep, h⟩
        · cases h

lemma eq_dot_or_up_of_mem_dots (h : name ∈ dots c) : name = "." ∨ name = ".." := by
  unfold dots at h
  split at h
  · have hname := List.mem_of_mem_filter h
    simp only [List.mem_cons, List.not_mem_nil, or_false] at hname
    exact hname.symm
  · cases h

lemma comes_child_of_text (habs : (Path.mk name).isAbsolute = false)
    (h : (if name = "." || name = ".." then s.tree.isDirectory dir
      else s.tree.hasNode (child dir name)) = true) : s.Comes dir (child dir name) := by
  split at h
  · rename_i hname
    have hname : name = "." ∨ name = ".." := by simpa using hname
    unfold child
    split
    · exact .here hname h ‹_›
    · exact .dots hname h
  · exact .node habs h

lemma mem_list?_iff (hdir : s.tree.isDirectory dir = true) (hname : IsName name) :
    name ∈ (s.tree.list? dir).getD [] ↔ s.tree.hasNode (child dir name) = true := by
  obtain ⟨here, hplace, hat⟩ := isDirectory_iff.1 hdir
  rw [hasNode_iff_mem_namesAt (place?_child hname hplace hat), list?_of_place? hplace hat,
    Option.getD_some]

lemma hasNode_of_mem_list? (hs : s.tree.WellNamed) (hdir : s.tree.isDirectory dir = true)
    (hname : name ∈ (s.tree.list? dir).getD []) : s.tree.hasNode (child dir name) = true :=
  (mem_list?_iff hdir (hs.isName_of_mem_list? hname)).1 hname

/-- What is found below a directory is a path that the search comes to, or stands below one. -/
lemma mem_below (hs : s.tree.WellNamed) (hcs : Relative cs) (h : f ∈ s.below n cs dir) :
    ∃ p, s.Comes dir p ∧ (f = p ∨ ∃ k < n, ∃ cs, Relative cs ∧ f ∈ s.below k cs p) := by
  cases n with
  | zero => simp [below] at h
  | succ n =>
    cases cs with
    | nil => simp [below] at h
    | cons c rest =>
      have hreach {p : Path} (h : f ∈ s.reach n rest p) :
          f = p ∨ ∃ k < n + 1, ∃ cs, Relative cs ∧ f ∈ s.below k cs p :=
        (mem_reach h).imp_right fun h => ⟨n, Nat.lt_succ_self n, rest, hcs.tail, h⟩
      cases htext : c.text? with
      | some name =>
        rw [below_text htext, List.mem_ite_nil_right] at h
        obtain ⟨hpresent, h⟩ := h
        have habs := hcs c List.mem_cons_self name htext
        exact ⟨child dir name, comes_child_of_text habs hpresent, hreach h⟩
      | none =>
        cases hdir : s.tree.isDirectory dir with
        | false =>
          rw [below_of_not_isDirectory htext hdir] at h
          cases h
        | true =>
          rw [below_names htext hdir, List.mem_append, List.mem_flatMap, List.mem_flatMap] at h
          rcases h with ⟨name, hname, h⟩ | ⟨name, hname, h⟩
          · exact ⟨_, .dots (eq_dot_or_up_of_mem_dots hname) hdir, hreach h⟩
          · have habs := isAbsolute_of_isName (hs.isName_of_mem_list? hname)
            refine ⟨_, .node habs (hasNode_of_mem_list? hs hdir hname),
              (mem_visit hcs.tail h).imp_right ?_⟩
            rintro ⟨k, hk, cs, hcs, h⟩
            exact ⟨k, Nat.lt_succ_of_lt hk, cs, hcs, h⟩

variable {u : FileTree}

lemma Comes.text_ne (h : s.Comes dir p) (hdir : dir.text ≠ "") : p.text ≠ "" := by
  cases h with
  | node _ h => exact text_ne_of_hasNode h
  | here hname => rcases hname with rfl | rfl <;> decide
  | dots => exact text_join_ne (.inl hdir)

/-- Where a path that a search has come to stands in some tree, so does its directory. -/
lemma Comes.isDirectory (h : s.Comes dir p) (hdir : dir.text ≠ "") (hp : u.hasNode p = true) :
    u.isDirectory dir = true := by
  have hdots {name : String} (hname : name = "." ∨ name = "..") :
      (Path.mk name).isAbsolute = false := by
    rcases hname with rfl | rfl <;> decide
  cases h with
  | node habs => exact isDirectory_of_hasNode_child habs hdir hp
  | here hname _ hhere =>
    exact isDirectory_of_hasNode_child (hdots hname) hdir (by rwa [child, if_pos hhere])
  | dots hname => exact isDirectory_of_hasNode_join (hdots hname) hdir hp

/-- What is found stands in no tree in which the search cannot begin. -/
lemma isDirectory_of_mem_below (hs : s.tree.WellNamed) (hcs : Relative cs) (hdir : dir.text ≠ "")
    (h : f ∈ s.below n cs dir) (hf : u.hasNode f = true) : u.isDirectory dir = true := by
  induction n using Nat.strong_induction_on generalizing cs dir with
  | _ n ih =>
    obtain ⟨p, hp, rfl | ⟨k, hk, cs, hcs, h⟩⟩ := mem_below hs hcs h
    · exact hp.isDirectory hdir hf
    · exact hp.isDirectory hdir (hasNode_of_isDirectory (ih k hk hcs (hp.text_ne hdir) h))

lemma fileName?_join_up (p : Path) : (p.join "..").fileName? = none := by
  have hseg : (Path.mk "..").segments = [".."] := segments_of_not_mem (by decide)
  have hlead : (Path.mk "..").lead = [] := by simp [lead, hseg, isAbsolute]
  have hsteps : (Path.mk "..").steps = [.up] := by
    rw [steps, hseg]
    rfl
  rw [fileName?, components_join p (by decide) hlead, hsteps, List.getLast?_concat]

lemma isDirectory_join_dot (h : u.isDirectory p = true) : u.isDirectory (p.join ".") = true := by
  obtain ⟨here, hplace, hat⟩ := isDirectory_iff.1 h
  have hne := text_ne_of_place? hplace
  have hdot : (Path.mk ".").isAbsolute = false := by decide
  refine isDirectory_iff.2 ⟨here, ?_, hat⟩
  rw [place?_eq u (text_join_ne (.inl hne)), route_join hdot hne, steps_dot, List.append_nil,
    walk_of_place? hplace]
  simp [Option.filter, hat]

lemma Comes.hasNode (h : s.Comes dir p) (hname : p.fileName?.isSome = true) :
    s.tree.hasNode p = true := by
  cases h with
  | node _ h => exact h
  | here hdots =>
    have hdot : (Path.mk ".").components = [.here] := by
      have hseg : (Path.mk ".").segments = ["."] := segments_of_not_mem (by decide)
      simp [components, hseg, isAbsolute, Path.inner]
    have hup : (Path.mk "..").fileName? = none := by
      have h := fileName?_join_up ⟨""⟩
      rwa [join, if_pos (by decide)] at h
    rcases hdots with rfl | rfl
    · simp [fileName?, hdot] at hname
    · simp [hup] at hname
  | dots hdots hdir =>
    rcases hdots with rfl | rfl
    · exact hasNode_of_isDirectory (isDirectory_join_dot hdir)
    · simp [fileName?_join_up] at hname

/-- What is found under a name stands in the tree. -/
lemma hasNode_of_mem_below (hs : s.tree.WellNamed) (hcs : Relative cs) (h : f ∈ s.below n cs dir)
    (hname : f.fileName?.isSome = true) : s.tree.hasNode f = true := by
  induction n using Nat.strong_induction_on generalizing cs dir with
  | _ n ih =>
    obtain ⟨p, hp, rfl | ⟨k, hk, cs, hcs, h⟩⟩ := mem_below hs hcs h
    · exact hp.hasNode hname
    · exact ih k hk hcs h

/-! ## Fuel -/

/-- Fuel for a search from a place on, with some components left: each component is carried through
all levels of directories. -/
def fuelFrom (t : FileTree) (k : Nat) (here : Place) : Nat :=
  3 * ((t.directories.size + 1) * k) + 3 * (t.directories.size - here.length) + 1

/-- There is fuel for a search from a path on. -/
def Enough (s : Search) (n : Nat) (cs : List Component) (p : Path) : Prop :=
  ∀ here, s.tree.place? p = some here → fuelFrom s.tree cs.length here ≤ n

variable {here place : Place} {j k : Nat}

lemma fuelFrom_of_fewer (hjk : j < k) (h : fuelFrom u k here ≤ n + 3) (place : Place) :
    fuelFrom u j place ≤ n := by
  have hmul := Nat.mul_le_mul_left (u.directories.size + 1) (Nat.succ_le_of_lt hjk)
  rw [Nat.mul_succ] at hmul
  unfold fuelFrom at h ⊢
  omega

lemma fuelFrom_of_deeper (hjk : j ≤ k) (hhere : here.length < u.directories.size)
    (hplace : place.length = here.length + 1) (h : fuelFrom u k here ≤ n + 2) :
    fuelFrom u j place ≤ n := by
  have hmul := Nat.mul_le_mul_left (u.directories.size + 1) hjk
  unfold fuelFrom at h ⊢
  omega

/-! ## Two searches -/

/-- Some results stand in another tree, too, and as the same kind of thing, as far as a test keeps
them. -/
def Agree (keep : Path → Bool) (u v : FileTree) (l : List Path) : Prop :=
  ∀ f ∈ l, keep f = true → v.hasNode f = true ∧ u.isDirectory f = v.isDirectory f

lemma Agree.mono {keep : Path → Bool} {u v : FileTree} {l l' : List Path} (h : Agree keep u v l)
    (hsub : l' ⊆ l) : Agree keep u v l' := fun f hf => h f (hsub hf)

/-- Two searches find the same that a test keeps, if there is fuel and their results agree. -/
def Alike (keep : Path → Bool) (s t : Search) (n m : Nat) (cs : List Component) (dir : Path) :
    Prop :=
  Relative cs → dir.text ≠ "" → s.Enough n cs dir → t.Enough m cs dir →
    Agree keep s.tree t.tree (s.below n cs dir) → Agree keep t.tree s.tree (t.below m cs dir) →
    (s.below n cs dir).filter keep = (t.below m cs dir).filter keep

variable {keep : Path → Bool}

/-- Nothing is kept below a path where nothing stands in the other tree. -/
lemma filter_eq_nil_of_agree {u v : FileTree} {l : List Path} (h : Agree keep u v l)
    (hnode : ∀ f ∈ l, v.hasNode f = true → False) : l.filter keep = [] :=
  List.filter_eq_nil_iff.2 fun f hf hkeep => hnode f hf (h f hf hkeep).1

/-- Whether one path is found is the same, if being a directory decides it. -/
lemma kept_alike {u v : FileTree} {a b : Bool} (hl : Agree keep u v (if a then [p] else []))
    (hr : Agree keep v u (if b then [p] else []))
    (hab : u.isDirectory p = v.isDirectory p → a = b) :
    (if a then [p] else []).filter keep = (if b then [p] else []).filter keep := by
  cases hkeep : keep p with
  | false => split <;> split <;> simp [hkeep]
  | true =>
    cases ha : a with
    | true =>
      rw [ha, if_pos rfl] at hl
      rw [← hab (hl p (List.mem_singleton_self p) hkeep).2, ha]
    | false =>
      cases hb : b with
      | true =>
        rw [hb, if_pos rfl] at hr
        rw [hab (hr p (List.mem_singleton_self p) hkeep).2.symm, hb] at ha
        cases ha
      | false => rfl

lemma found_alike (honly : s.directoriesOnly = t.directoriesOnly)
    (hl : Agree keep s.tree t.tree (s.found p)) (hr : Agree keep t.tree s.tree (t.found p)) :
    (s.found p).filter keep = (t.found p).filter keep := by
  have hfound (s : Search) :
      s.found p = if !s.directoriesOnly || s.tree.isDirectory p then [p] else [] := by
    unfold found
    cases s.directoriesOnly <;> cases s.tree.isDirectory p <;> rfl
  rw [hfound] at hl hr ⊢
  rw [hfound]
  exact kept_alike hl hr fun h => by rw [honly, h]

lemma hasNode_of_mem_reach {u : FileTree} (hs : s.tree.WellNamed) (hrest : Relative rest)
    (hp : p.text ≠ "") (h : f ∈ s.reach n rest p) (hf : u.hasNode f = true) :
    u.hasNode p = true := by
  rcases mem_reach h with rfl | h
  · exact hf
  · exact hasNode_of_isDirectory (isDirectory_of_mem_below hs hrest hp h hf)

lemma hasNode_of_mem_visit {u : FileTree} (hs : s.tree.WellNamed) (hrest : Relative rest)
    (hp : p.text ≠ "") (h : f ∈ s.visit n c rest p) (hf : u.hasNode f = true) :
    u.hasNode p = true := by
  rcases mem_visit hrest h with rfl | ⟨k, -, cs, hcs, h⟩
  · exact hf
  · exact hasNode_of_isDirectory (isDirectory_of_mem_below hs hcs hp h hf)

lemma reach_alike (honly : s.directoriesOnly = t.directoriesOnly)
    (ih : Alike keep s t n m rest p) (hrest : Relative rest) (hp : p.text ≠ "")
    (hn : s.Enough n rest p) (hm : t.Enough m rest p)
    (hl : Agree keep s.tree t.tree (s.reach n rest p))
    (hr : Agree keep t.tree s.tree (t.reach m rest p)) :
    (s.reach n rest p).filter keep = (t.reach m rest p).filter keep := by
  unfold reach at hl hr ⊢
  split
  · rename_i hrest
    simp only [hrest, if_true] at hl hr
    exact found_alike honly hl hr
  · rename_i hmore
    simp only [hmore] at hl hr
    exact ih hrest hp hn hm hl hr

/-- A directory of both trees, with fuel for each. -/
structure Shared (s t : Search) (n m : Nat) (k : Nat) (dir : Path) : Prop where
  left : ∃ here, s.tree.place? dir = some here ∧ s.tree.isDirectoryAt here = true ∧
    fuelFrom s.tree k here ≤ n
  right : ∃ here, t.tree.place? dir = some here ∧ t.tree.isDirectoryAt here = true ∧
    fuelFrom t.tree k here ≤ m

lemma Shared.enough {dir : Path} (h : Shared s t (n + 3) (m + 3) k dir) (hrest : rest.length < k)
    (p : Path) : s.Enough n rest p ∧ t.Enough m rest p := by
  obtain ⟨⟨_, -, -, hn⟩, _, -, -, hm⟩ := h
  exact ⟨fun place _ => fuelFrom_of_fewer hrest hn place,
    fun place _ => fuelFrom_of_fewer hrest hm place⟩

lemma Shared.enough_child (h : Shared s t (n + 2) (m + 2) k dir) (hname : IsName name)
    (hcs : cs.length ≤ k) : s.Enough n cs (child dir name) ∧ t.Enough m cs (child dir name) := by
  obtain ⟨⟨here, hplace, hat, hn⟩, here', hplace', hat', hm⟩ := h
  constructor <;> intro place hchild
  · obtain rfl := Option.some.inj ((place?_child hname hplace hat).symm.trans hchild)
    exact fuelFrom_of_deeper hcs (length_lt_of_place? hplace hat) (by simp) hn
  · obtain rfl := Option.some.inj ((place?_child hname hplace' hat').symm.trans hchild)
    exact fuelFrom_of_deeper hcs (length_lt_of_place? hplace' hat') (by simp) hm

lemma matched_alike (honly : s.directoriesOnly = t.directoriesOnly)
    (ih : Alike keep s t n m rest p) (hrest : Relative rest) (hp : p.text ≠ "")
    (hn : s.Enough n rest p) (hm : t.Enough m rest p)
    (hl : Agree keep s.tree t.tree (s.matched (n + 1) c rest p))
    (hr : Agree keep t.tree s.tree (t.matched (m + 1) c rest p)) :
    (s.matched (n + 1) c rest p).filter keep = (t.matched (m + 1) c rest p).filter keep := by
  rw [matched_succ] at hl hr ⊢
  rw [matched_succ]
  split
  · rename_i hname
    rw [if_pos hname] at hl hr
    exact reach_alike honly ih hrest hp hn hm hl hr
  · rfl

lemma visit_alike (hs : s.tree.WellNamed) (ht : t.tree.WellNamed)
    (honly : s.directoriesOnly = t.directoriesOnly)
    (ih : ∀ i < n + 3, ∀ j cs dir, Alike keep s t i j cs dir)
    (h : Shared s t (n + 3) (m + 3) (rest.length + 1) dir) (hrelative : Relative rest)
    (hname : IsName name) (hp : (child dir name).text ≠ "")
    (hl : Agree keep s.tree t.tree (s.visit (n + 2) c rest (child dir name)))
    (hr : Agree keep t.tree s.tree (t.visit (m + 2) c rest (child dir name))) :
    (s.visit (n + 2) c rest (child dir name)).filter keep =
      (t.visit (m + 2) c rest (child dir name)).filter keep := by
  set p := child dir name with hchild
  have hrest (r : List Component) (hr : r.length < rest.length + 1) := h.enough hr p
  cases c with
  | plain tokens =>
    rw [visit_plain] at hl hr ⊢
    rw [visit_plain]
    obtain ⟨hn, hm⟩ := hrest rest (Nat.lt_succ_self _)
    exact matched_alike honly (ih n (by omega) m rest p) hrelative hp hn hm hl hr
  | deep =>
    rw [visit_deep] at hl hr ⊢
    rw [visit_deep, List.filter_append, List.filter_append]
    have hlen : (rest.dropWhile Component.isDeep).length ≤ rest.length :=
      (List.dropWhile_sublist _).length_le
    congr 1
    · have hl := hl.mono (List.subset_append_left _ _)
      have hr := hr.mono (List.subset_append_left _ _)
      cases hdrop : rest.dropWhile Component.isDeep with
      | nil =>
        rw [hdrop] at hl hr
        exact kept_alike hl hr id
      | cons c r =>
        rw [hdrop] at hl hr hlen
        rw [List.length_cons] at hlen
        obtain ⟨hn, hm⟩ := hrest r (by omega)
        exact matched_alike honly (ih n (by omega) m r p) (hrelative.of_dropWhile hdrop) hp hn hm
          hl hr
    · have hl := hl.mono (List.subset_append_right _ _)
      have hr := hr.mono (List.subset_append_right _ _)
      cases hsdir : s.tree.isDirectory p <;> cases htdir : t.tree.isDirectory p <;>
        simp only [hsdir, htdir, Bool.false_eq_true, if_false, if_true] at hl hr ⊢
      · exact (filter_eq_nil_of_agree hr fun f hf hnode => by
          rw [isDirectory_of_mem_below ht hrelative.deep hp hf hnode] at hsdir
          cases hsdir).symm
      · exact filter_eq_nil_of_agree hl fun f hf hnode => by
          rw [isDirectory_of_mem_below hs hrelative.deep hp hf hnode] at htdir
          cases htdir
      · have hcs :
            (Component.deep :: rest.dropWhile Component.isDeep).length ≤ rest.length + 1 := by
          simpa using hlen
        obtain ⟨hn, hm⟩ := Shared.enough_child (n := n + 1) (m := m + 1) h hname hcs
        exact ih (n + 1) (by omega) (m + 1) _ p hrelative.deep hp hn hm hl hr

/-- Lists in order that lead to the same where they share an element, and to nothing elsewhere. -/
lemma flatMap_eq_of_sorted {α : Type u} {l l' : List String} {g g' : String → List α}
    (hl : l.Pairwise (· < ·)) (hl' : l'.Pairwise (· < ·)) (hboth : ∀ x ∈ l, x ∈ l' → g x = g' x)
    (hleft : ∀ x ∈ l, x ∉ l' → g x = []) (hright : ∀ x ∈ l', x ∉ l → g' x = []) :
    l.flatMap g = l'.flatMap g' := by
  have hfilter (l l' : List String) (g : String → List α) (h : ∀ x ∈ l, x ∉ l' → g x = []) :
      l.flatMap g = (l.filter (· ∈ l')).flatMap g := by
    induction l with
    | nil => rfl
    | cons x l ih =>
      have hrest := ih fun y hy => h y (List.mem_cons_of_mem x hy)
      rw [List.filter_cons]
      split
      · rw [List.flatMap_cons, List.flatMap_cons, hrest]
      · rename_i hx
        rw [List.flatMap_cons, h x List.mem_cons_self (by simpa using hx), hrest]
        rfl
  have hshared : l.filter (· ∈ l') = l'.filter (· ∈ l) :=
    (hl.filter _).eq_of_mem_iff (hl'.filter _) fun x => by simp [and_comm]
  rw [hfilter l l' g hleft, hfilter l' l g' hright, hshared]
  refine List.flatMap_congr fun x hx => ?_
  obtain ⟨hx', hx⟩ := List.mem_filter.1 hx
  exact hboth x (by simpa using hx) hx'

lemma Enough.mono {p : Path} (h : s.Enough n cs p) (hnm : n ≤ m) : s.Enough m cs p :=
  fun here hplace => (h here hplace).trans hnm

lemma Shared.reach_alike (honly : s.directoriesOnly = t.directoriesOnly)
    (h : Shared s t (n + 3) (m + 3) (rest.length + 1) dir)
    (ih : ∀ i < n + 3, ∀ j cs dir, Alike keep s t i j cs dir) (hrest : Relative rest)
    (hp : p.text ≠ "") (hl : Agree keep s.tree t.tree (s.reach (n + 2) rest p))
    (hr : Agree keep t.tree s.tree (t.reach (m + 2) rest p)) :
    (s.reach (n + 2) rest p).filter keep = (t.reach (m + 2) rest p).filter keep := by
  obtain ⟨hn, hm⟩ := h.enough (Nat.lt_succ_self rest.length) p
  exact Search.reach_alike honly (ih (n + 2) (by omega) (m + 2) rest p) hrest hp
    (hn.mono (by omega)) (hm.mono (by omega)) hl hr

lemma Shared.isDirectory (h : Shared s t n m k dir) :
    s.tree.isDirectory dir = true ∧ t.tree.isDirectory dir = true := by
  obtain ⟨⟨here, hplace, hat, -⟩, here', hplace', hat', -⟩ := h
  exact ⟨isDirectory_iff.2 ⟨here, hplace, hat⟩, isDirectory_iff.2 ⟨here', hplace', hat'⟩⟩

/-- A component without special characters. -/
lemma text_alike (hs : s.tree.WellNamed) (ht : t.tree.WellNamed)
    (honly : s.directoriesOnly = t.directoriesOnly) (htext : c.text? = some name)
    (h : Shared s t (n + 3) (m + 3) (rest.length + 1) dir)
    (ih : ∀ i < n + 3, ∀ j cs dir, Alike keep s t i j cs dir) (hrelative : Relative (c :: rest))
    (hdir : dir.text ≠ "") (hl : Agree keep s.tree t.tree (s.below (n + 3) (c :: rest) dir))
    (hr : Agree keep t.tree s.tree (t.below (m + 3) (c :: rest) dir)) :
    (s.below (n + 3) (c :: rest) dir).filter keep =
      (t.below (m + 3) (c :: rest) dir).filter keep := by
  obtain ⟨hsdir, htdir⟩ := h.isDirectory
  rw [below_text htext] at hl hr ⊢
  rw [below_text htext]
  by_cases hname : (name = "." || name = "..") = true
  · rw [if_pos hname, hsdir, if_pos rfl] at hl ⊢
    rw [if_pos hname, htdir, if_pos rfl] at hr ⊢
    have hp : (child dir name).text ≠ "" := by
      have hname : name = "." ∨ name = ".." := by simpa using hname
      unfold child
      split
      · rcases hname with rfl | rfl <;> decide
      · exact text_join_ne (.inl hdir)
    exact h.reach_alike honly ih hrelative.tail hp hl hr
  · rw [if_neg hname] at hl hr ⊢
    rw [if_neg hname]
    cases hsnode : s.tree.hasNode (child dir name) <;>
      cases htnode : t.tree.hasNode (child dir name) <;>
      simp only [hsnode, htnode, Bool.false_eq_true, if_false, if_true] at hl hr ⊢
    · exact (filter_eq_nil_of_agree hr fun f hf hnode => by
        rw [hasNode_of_mem_reach ht hrelative.tail (text_ne_of_hasNode htnode) hf hnode] at hsnode
        cases hsnode).symm
    · exact filter_eq_nil_of_agree hl fun f hf hnode => by
        rw [hasNode_of_mem_reach hs hrelative.tail (text_ne_of_hasNode hsnode) hf hnode] at htnode
        cases htnode
    · exact h.reach_alike honly ih hrelative.tail (text_ne_of_hasNode hsnode) hl hr

/-- Nothing is kept below a name that only one of two directories has. -/
lemma visit_alone (hs : s.tree.WellNamed) (hsdir : s.tree.isDirectory dir = true)
    (htdir : t.tree.isDirectory dir = true) (hin : name ∈ (s.tree.list? dir).getD [])
    (hout : name ∉ (t.tree.list? dir).getD []) (hrest : Relative rest)
    (hl : Agree keep s.tree t.tree (s.visit n c rest (child dir name))) :
    (s.visit n c rest (child dir name)).filter keep = [] := by
  have hp := text_ne_of_hasNode (hasNode_of_mem_list? hs hsdir hin)
  have hname := hs.isName_of_mem_list? hin
  exact filter_eq_nil_of_agree hl fun f hf hnode =>
    hout ((mem_list?_iff htdir hname).2 (hasNode_of_mem_visit hs hrest hp hf hnode))

/-- A component with special characters: names that only one directory has lead to nothing. -/
lemma names_alike (hs : s.tree.WellNamed) (ht : t.tree.WellNamed)
    (honly : s.directoriesOnly = t.directoriesOnly) (htext : c.text? = none)
    (h : Shared s t (n + 3) (m + 3) (rest.length + 1) dir)
    (ih : ∀ i < n + 3, ∀ j cs dir, Alike keep s t i j cs dir) (hrelative : Relative (c :: rest))
    (hdir : dir.text ≠ "") (hl : Agree keep s.tree t.tree (s.below (n + 3) (c :: rest) dir))
    (hr : Agree keep t.tree s.tree (t.below (m + 3) (c :: rest) dir)) :
    (s.below (n + 3) (c :: rest) dir).filter keep =
      (t.below (m + 3) (c :: rest) dir).filter keep := by
  obtain ⟨hsdir, htdir⟩ := h.isDirectory
  rw [below_names htext hsdir] at hl ⊢
  rw [below_names htext htdir] at hr ⊢
  rw [List.filter_append, List.filter_append, List.filter_flatMap, List.filter_flatMap,
    List.filter_flatMap, List.filter_flatMap]
  congr 1
  · refine List.flatMap_congr fun name hname => ?_
    exact h.reach_alike honly ih hrelative.tail (text_join_ne (.inl hdir))
      (hl.mono fun f hf => List.mem_append_left _ (List.mem_flatMap.2 ⟨name, hname, hf⟩))
      (hr.mono fun f hf => List.mem_append_left _ (List.mem_flatMap.2 ⟨name, hname, hf⟩))
  · have hl (name : String) (hname : name ∈ (s.tree.list? dir).getD []) :=
      hl.mono fun f hf => List.mem_append_right _ (List.mem_flatMap.2 ⟨name, hname, hf⟩)
    have hr (name : String) (hname : name ∈ (t.tree.list? dir).getD []) :=
      hr.mono fun f hf => List.mem_append_right _ (List.mem_flatMap.2 ⟨name, hname, hf⟩)
    refine flatMap_eq_of_sorted (sorted_list? _ _) (sorted_list? _ _) (fun name hin hin' => ?_)
      (fun name hin hout => visit_alone hs hsdir htdir hin hout hrelative.tail (hl name hin))
      fun name hin hout => visit_alone ht htdir hsdir hin hout hrelative.tail (hr name hin)
    have hp := text_ne_of_hasNode (hasNode_of_mem_list? hs hsdir hin)
    exact visit_alike hs ht honly ih h hrelative.tail (hs.isName_of_mem_list? hin) hp (hl name hin)
      (hr name hin')

/-- What two searches find is the same, as far as a test keeps it, if what is kept of each stands in
the other tree. -/
lemma below_alike (hs : s.tree.WellNamed) (ht : t.tree.WellNamed)
    (honly : s.directoriesOnly = t.directoriesOnly)
    (hkeep : ∀ f, keep f = true → f.fileName?.isSome = true) (n m : Nat) (cs : List Component)
    (dir : Path) : Alike keep s t n m cs dir := by
  induction n using Nat.strong_induction_on generalizing m cs dir with
  | _ n ih =>
    intro hrelative hdir hn hm hl hr
    -- where one of them cannot begin, neither finds anything
    have hempty {s t : Search} {n : Nat} (hs : s.tree.WellNamed)
        (hl : Agree keep s.tree t.tree (s.below n cs dir))
        (h : s.tree.isDirectory dir = false ∨ t.tree.isDirectory dir = false) :
        (s.below n cs dir).filter keep = [] := by
      refine List.filter_eq_nil_iff.2 fun f hf hkept => ?_
      have hself := hasNode_of_mem_below hs hrelative hf (hkeep f hkept)
      have hhere := isDirectory_of_mem_below hs hrelative hdir hf hself
      have hthere := isDirectory_of_mem_below hs hrelative hdir hf (hl f hf hkept).1
      rw [hhere, hthere] at h
      simp at h
    by_cases hone : s.tree.isDirectory dir = false ∨ t.tree.isDirectory dir = false
    · rw [hempty hs hl hone, hempty ht hr hone.symm]
    simp only [not_or, Bool.not_eq_false] at hone
    obtain ⟨here, hplace, hat⟩ := isDirectory_iff.1 hone.1
    obtain ⟨here', hplace', hat'⟩ := isDirectory_iff.1 hone.2
    cases cs with
    | nil => cases n <;> cases m <;> simp [below]
    | cons c rest =>
      have hshared : Shared s t n m (rest.length + 1) dir :=
        ⟨⟨here, hplace, hat, hn here hplace⟩, ⟨here', hplace', hat', hm here' hplace'⟩⟩
      have hfuel {u : FileTree} {here : Place} {n : Nat}
          (h : fuelFrom u (rest.length + 1) here ≤ n) : ∃ k, n = k + 3 := by
        unfold fuelFrom at h
        rw [Nat.mul_succ] at h
        exact ⟨n - 3, by omega⟩
      obtain ⟨n, rfl⟩ := hfuel (hn here hplace)
      obtain ⟨m, rfl⟩ := hfuel (hm here' hplace')
      cases htext : c.text? with
      | some name => exact text_alike hs ht honly htext hshared ih hrelative hdir hl hr
      | none => exact names_alike hs ht honly htext hshared ih hrelative hdir hl hr

lemma enough_start (t : FileTree) (only : Bool) (cs : List Component) (p : Path) :
    Enough ⟨t, only⟩ (4 * (cs.length + 1) * (t.directories.size + 2)) cs p := by
  intro here _
  have hfuel : 4 * (cs.length + 1) * (t.directories.size + 2) =
      4 * ((t.directories.size + 1) * cs.length) + 4 * cs.length + 4 * t.directories.size + 8 := by
    ring
  rw [hfuel, fuelFrom]
  dsimp only
  omega

end Search

/-- The paths that match a pattern and that a test keeps. -/
def kept (keep : Path → Bool) (t : FileTree) (pattern : String) : List Path :=
  ((search? t pattern).getD []).filter keep

variable {keep : Path → Bool} {u v : FileTree} {pattern part : String}

/-! ## Patterns -/

lemma subset_of_inside? {cs inner rest : List Char} (h : inside? cs = some (inner, rest)) :
    rest ⊆ cs := by
  cases cs with
  | nil => cases h
  | cons d r =>
    simp only [inside?, Option.ite_none_right_eq_some, Option.some.injEq, Prod.mk.injEq] at h
    obtain ⟨-, -, rfl⟩ := h
    exact fun c hc => List.mem_cons_of_mem d (List.mem_of_mem_drop hc)

/-- The characters of a pattern come from its text. -/
lemma mem_of_tokens? {x : Char} {n : Nat} {cs : List Char} {ts : List Token}
    (h : tokens? n cs = some ts) (hx : .char x ∈ ts) : x ∈ cs := by
  induction n generalizing cs ts with
  | zero => simp [tokens?] at h
  | succ n ih =>
    cases cs with
    | nil =>
      obtain rfl := Option.some.inj h
      cases hx
    | cons d r =>
      have hstep {t : Token} {rest : List Char} (ht : t ≠ .char x) (hrest : rest ⊆ r)
          (h : (tokens? n rest).map (t :: ·) = some ts) : x ∈ d :: r := by
        obtain ⟨ts', hts, rfl⟩ := Option.map_eq_some_iff.1 h
        exact List.mem_cons_of_mem d (hrest (ih hts ((List.mem_cons.1 hx).resolve_left ht.symm)))
      simp only [tokens?] at h
      split_ifs at h with hone hrun hrepeated hchoice
      · exact hstep (by simp) (List.Subset.refl r) h
      · exact hstep (by simp) (List.Subset.refl r) h
      · split at h
        · rename_i hinside
          refine hstep (by simp) (List.Subset.trans (subset_of_inside? hinside) ?_) h
          split
          · exact List.subset_cons_self _ _
          · exact List.Subset.refl _
        · cases h
      · obtain ⟨ts', hts, rfl⟩ := Option.map_eq_some_iff.1 h
        rcases List.mem_cons.1 hx with hx | hx
        · rw [Token.char.inj hx]
          exact List.mem_cons_self
        · exact List.mem_cons_of_mem d (ih hts hx)

/-- What is read element by element comes from some element. -/
lemma exists_of_mem_mapM {α β : Type} {g : α → Option β} {l : List α} {m : List β} {b : β}
    (h : l.mapM g = some m) (hb : b ∈ m) : ∃ a ∈ l, g a = some b := by
  induction l generalizing m with
  | nil =>
    obtain rfl := Option.some.inj h
    cases hb
  | cons a l ih =>
    rw [List.mapM_cons] at h
    obtain ⟨c, hc, h⟩ := Option.bind_eq_some_iff.1 h
    obtain ⟨m', hm', h⟩ := Option.bind_eq_some_iff.1 h
    obtain rfl := Option.some.inj h
    rcases List.mem_cons.1 hb with rfl | hb
    · exact ⟨a, List.mem_cons_self, hc⟩
    · obtain ⟨x, hx, hgx⟩ := ih hm' hb
      exact ⟨x, List.mem_cons_of_mem a hx, hgx⟩

/-- What a component without special characters stands for comes from its text. -/
lemma subset_of_text? {c : Component} (hc : Component.parse? part = some c)
    (hname : c.text? = some name) : name.toList ⊆ part.toList := by
  unfold Component.parse? at hc
  split at hc
  · obtain rfl := Option.some.inj hc
    cases hname
  · obtain ⟨ts, hts, rfl⟩ := Option.map_eq_some_iff.1 hc
    obtain ⟨cs, hcs, rfl⟩ := Option.map_eq_some_iff.1 hname
    intro x hx
    rw [String.toList_ofList] at hx
    obtain ⟨t, ht, hchar⟩ := exists_of_mem_mapM hcs hx
    cases t with
    | char d =>
      obtain rfl := Option.some.inj hchar
      exact mem_of_tokens? hts ht
    | anyOne | anyRun | oneOf => cases hchar

lemma not_mem_of_mem_parts (h : part ∈ parts pattern) : '/' ∉ part.toList := by
  have hpieces : ∀ s ∈ pattern.splitOn "/", '/' ∉ s.toList := fun s hs =>
    (Text.pieces_of_splitOn_string (c := '/') hs).1
  have hmem : ∀ s ∈ (pattern.splitOn "/").reverse, '/' ∉ s.toList := by simpa using hpieces
  unfold parts at h
  split at h
  · rename_i before hbefore
    rw [hbefore] at hmem
    split at h
    · rw [List.mem_singleton.1 h]
      simp
    · exact hmem part (List.mem_cons_of_mem _ (List.mem_reverse.1 h))
  · exact hmem part (List.mem_reverse.1 h)

lemma relative_of_parts {cs : List Component}
    (h : (parts pattern).mapM Component.parse? = some cs) :
    Search.Relative cs := by
  intro c hc name hname
  obtain ⟨part, hpart, hparse⟩ := exists_of_mem_mapM h hc
  rw [isAbsolute, beq_eq_false_iff_ne]
  exact fun hhead => not_mem_of_mem_parts hpart
    (subset_of_text? hparse hname (List.mem_of_head? hhead))

lemma text_scope_ne (pattern : String) : (scope pattern).1.text ≠ "" := by
  unfold scope
  split
  · exact (by decide : "/" ≠ "")
  · exact (by decide : "." ≠ "")

lemma search?_eq (t : FileTree) {cs : List Component}
    (h : (parts (scope pattern).2).mapM Component.parse? = some cs) :
    search? t pattern = some (Search.below ⟨t, pattern.toList.getLast? == some '/'⟩
      (4 * (cs.length + 1) * (t.directories.size + 2)) cs (scope pattern).1) := by
  rw [search?]
  dsimp only
  rw [h]
  rfl

/-- What is found under a name stands in the tree. -/
lemma hasNode_of_mem_kept (hu : u.WellNamed)
    (hkeep : ∀ f, keep f = true → f.fileName?.isSome = true) (hf : f ∈ kept keep u pattern) :
    u.hasNode f = true := by
  obtain ⟨hf, hkept⟩ := List.mem_filter.1 hf
  cases hcs : (parts (scope pattern).2).mapM Component.parse? with
  | none => simp [search?, hcs] at hf
  | some cs =>
    rw [search?_eq u hcs, Option.getD_some] at hf
    exact Search.hasNode_of_mem_below hu (relative_of_parts hcs) hf (hkeep f hkept)

/-- **Searching two trees.** A pattern matches the same paths in two trees, as far as a test keeps
them, if what is kept in each stands in the other one, and as the same kind of thing. -/
theorem kept_congr (hu : u.WellNamed) (hv : v.WellNamed)
    (hkeep : ∀ f, keep f = true → f.fileName?.isSome = true)
    (hl : ∀ f ∈ kept keep u pattern, v.hasNode f = true ∧ u.isDirectory f = v.isDirectory f)
    (hr : ∀ f ∈ kept keep v pattern, u.hasNode f = true ∧ v.isDirectory f = u.isDirectory f) :
    kept keep u pattern = kept keep v pattern := by
  unfold kept at hl hr ⊢
  cases hcs : (parts (scope pattern).2).mapM Component.parse? with
  | none => simp [search?, hcs]
  | some cs =>
    rw [search?_eq u hcs, Option.getD_some] at hl ⊢
    rw [search?_eq v hcs, Option.getD_some] at hr ⊢
    exact Search.below_alike (s := ⟨u, _⟩) (t := ⟨v, _⟩) hu hv rfl hkeep _ _ cs (scope pattern).1
      (relative_of_parts hcs) (text_scope_ne pattern)
      (Search.enough_start u _ cs _) (Search.enough_start v _ cs _)
      (fun f hf hkept => hl f (List.mem_filter.2 ⟨hf, hkept⟩))
      fun f hf hkept => hr f (List.mem_filter.2 ⟨hf, hkept⟩)

end AddonAtlas.PathGlob
