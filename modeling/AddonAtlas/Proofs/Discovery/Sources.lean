import AddonAtlas.Discovery.Sources
import AddonAtlas.Proofs.Discovery.Resolution
import AddonAtlas.Proofs.Files.PathSets
import AddonAtlas.Proofs.Files.Spellings
import AddonAtlas.Proofs.Source.Recovery
import Mathlib.Algebra.Order.Ring.Nat
import Mathlib.Data.Nat.SuccPred

/-!
The sources of a package are the files that imports lead to from its entry point.

A run of the queue is told by a relation without fuel, which lists the files that it reads. They
lie below the directory of the entry point, or below the top where an import has an absolute
segment, and at each place in the tree at most one of either kind stands, so a run ends. What it
reads is closed under imports, and it reads the files by their distance from the entry point.
-/

namespace AddonAtlas

open AddonAtlas.Path Import

/-- A package with other files. -/
def Package.withFiles (p : Package) (files : PathSet) : Package := { p with files := files }

namespace Site

/-- A source imports a file from beside it. All spellings of the file count. -/
def Pulls (s : Site) (f g : Path) : Prop :=
  ∃ u i h, s.readSource f = .ok u ∧ i ∈ u.imports ∧
    Import.classify s.discovery i = .localSource ∧
    h ∈ Import.resolve s.files s.discovery.entryPoint (f.parent?.getD ⟨"."⟩) i ∧ h.key = g.key

/-- A file that some imports in a row lead to from an entry point. -/
inductive ReachedIn (s : Site) (entry : Path) : Nat → Path → Prop
  | entry {f} : f.key = entry.key → ReachedIn s entry 0 f
  | pull {n f g} : ReachedIn s entry n f → s.Pulls f g → ReachedIn s entry (n + 1) g

lemma ReachedIn.congr {s : Site} {entry f g : Path} {n : Nat} (h : s.ReachedIn entry n f)
    (hkey : f.key = g.key) : s.ReachedIn entry n g := by
  cases h with
  | entry h => exact .entry (hkey ▸ h)
  | pull h hpull =>
    obtain ⟨u, i, x, hu, hi, hkind, hx, hxf⟩ := hpull
    exact .pull h ⟨u, i, x, hu, hi, hkind, hx, hxf.trans hkey⟩

/-- A file that fewer imports in a row do not lead to. -/
def Distance (s : Site) (entry : Path) (n : Nat) (f : Path) : Prop :=
  s.ReachedIn entry n f ∧ ∀ m < n, ¬ s.ReachedIn entry m f

/-- A run of the queue, without a bound on its length: it begins with a package and a queue, reads
some files in this order and ends with a package. -/
inductive QueueRun (s : Site) (entry : Path) : Package → List Path → List Path → Package → Prop
  | done {p} : QueueRun s entry p [] [] p
  | skip {p f queue order q} : p.files.contains f = true →
      QueueRun s entry p queue order q → QueueRun s entry p (f :: queue) order q
  | read {p f queue order q u} : p.files.contains f = false → s.readSource f = .ok u →
      QueueRun s entry
        ((p.withFiles (p.files.insert f)).addSource u (s.importedPackages u.imports))
        (queue ++ s.localSources f u.imports) order q →
      QueueRun s entry p (f :: queue) (f :: order) q
  | fail {p f queue order q e} : p.files.contains f = false → s.readSource f = .error e →
      f.key ≠ entry.key → QueueRun s entry (p.withFiles (p.files.insert f)) queue order q →
      QueueRun s entry p (f :: queue) (f :: order) q

variable {s : Site} {entry : Path} {p q : Package} {f g : Path} {queue order : List Path}

/-! ## Steps of a run -/

lemma QueueRun.of_skip (h : s.QueueRun entry p (f :: queue) order q)
    (hf : p.files.contains f = true) : s.QueueRun entry p queue order q := by
  cases h with
  | skip _ hrun => exact hrun
  | read hf' | fail hf' =>
    rw [hf] at hf'
    cases hf'

lemma QueueRun.of_read {u : Source.Unit} (h : s.QueueRun entry p (f :: queue) order q)
    (hf : p.files.contains f = false) (hu : s.readSource f = .ok u) :
    ∃ rest, order = f :: rest ∧ s.QueueRun entry
      ((p.withFiles (p.files.insert f)).addSource u (s.importedPackages u.imports))
      (queue ++ s.localSources f u.imports) rest q := by
  cases h with
  | skip hf' =>
    rw [hf] at hf'
    cases hf'
  | read _ hu' hrun =>
    obtain rfl := Except.ok.inj (hu.symm.trans hu')
    exact ⟨_, rfl, hrun⟩
  | fail _ he =>
    rw [hu] at he
    cases he

lemma QueueRun.of_fail {e : Source.ParseFailure} (h : s.QueueRun entry p (f :: queue) order q)
    (hf : p.files.contains f = false) (he : s.readSource f = .error e) :
    ∃ rest, order = f :: rest ∧ f.key ≠ entry.key ∧
      s.QueueRun entry (p.withFiles (p.files.insert f)) queue rest q := by
  cases h with
  | skip hf' =>
    rw [hf] at hf'
    cases hf'
  | read _ hu =>
    rw [he] at hu
    cases hu
  | fail _ _ hne hrun => exact ⟨_, rfl, hne, hrun⟩

/-! ## Runs and fuel -/

lemma readQueue_skip (hf : p.files.contains f = true) (n : Nat) :
    s.readQueue entry n p (f :: queue) = s.readQueue entry n p queue := by
  cases n with
  | zero => rfl
  | succ n => simp only [readQueue, List.dropWhile_cons_of_pos hf]

lemma readQueue_of_run (h : s.QueueRun entry p queue order q) {n : Nat} (hn : order.length < n) :
    s.readQueue entry n p queue = .ok q := by
  induction h generalizing n with
  | done =>
    obtain ⟨m, rfl⟩ := Nat.exists_eq_succ_of_ne_zero (Nat.ne_of_gt hn)
    rfl
  | skip hf hrun ih =>
    rw [readQueue_skip hf]
    exact ih hn
  | read hf hu hrun ih =>
    obtain ⟨m, rfl⟩ := Nat.exists_eq_succ_of_ne_zero (Nat.ne_of_gt (Nat.zero_lt_of_lt hn))
    simp only [readQueue, List.dropWhile_cons_of_neg (by simpa using hf), hu]
    exact ih (by simpa using hn)
  | fail hf he hne hrun ih =>
    obtain ⟨m, rfl⟩ := Nat.exists_eq_succ_of_ne_zero (Nat.ne_of_gt (Nat.zero_lt_of_lt hn))
    simp only [readQueue, List.dropWhile_cons_of_neg (by simpa using hf), he, if_neg hne]
    exact ih (by simpa using hn)

/-- Runs from one package and queue end with one package. -/
lemma QueueRun.unique {order' : List Path} {q' : Package}
    (h : s.QueueRun entry p queue order q) (h' : s.QueueRun entry p queue order' q') : q = q' := by
  have hread : s.readQueue entry (order.length + order'.length + 1) p queue = .ok q :=
    readQueue_of_run h (by omega)
  exact Except.ok.inj (hread.symm.trans (readQueue_of_run h' (by omega)))

/-! ## Files below a directory -/

variable {dir : Path}

lemma mem_localSources {imports : List String} :
    g ∈ s.localSources f imports ↔ ∃ i ∈ imports,
      Import.classify s.discovery i = .localSource ∧
      g ∈ Import.resolve s.files s.discovery.entryPoint (f.parent?.getD ⟨"."⟩) i := by
  simp only [localSources, List.mem_flatMap]
  refine exists_congr fun i => and_congr_right fun _ => ?_
  cases Import.classify s.discovery i <;> simp

/-- A file somewhere below a directory. -/
def LiesBelow (s : Site) (dir f : Path) : Prop := ∃ l, l ≠ [] ∧ Below s.files dir f l

/-- A file below a directory or below the top. -/
def Inside (s : Site) (dir f : Path) : Prop := s.LiesBelow dir f ∨ s.LiesBelow ⟨"/"⟩ f

/-- What a file below a directory imports lies below the directory, too, unless an absolute segment
leads away. -/
lemma LiesBelow.localSources (hname : IsName s.discovery.entryPoint) {top : Path}
    (hf : s.LiesBelow top f) {imports : List String} (hg : g ∈ s.localSources f imports) :
    s.LiesBelow top g ∨ s.LiesBelow ⟨"/"⟩ g ∧
      ∃ i ∈ imports, Import.classify s.discovery i = .localSource ∧ ¬ StaysBelow i := by
  obtain ⟨l, hl, hbelow⟩ := hf
  obtain ⟨d, hd, hcomps⟩ := hbelow.parent? hl
  obtain ⟨i, hi, hkind, hg⟩ := mem_localSources.1 hg
  rw [hd, Option.getD_some] at hg
  obtain ⟨base, m, rfl | ⟨rfl, hout⟩, hm, hgd⟩ := mem_resolve hname hg
  · exact .inl ⟨_, by simp [hm], hgd.trans hcomps⟩
  · exact .inr ⟨⟨m, hm, hgd⟩, i, hi, hkind, hout⟩

lemma Inside.localSources (hname : IsName s.discovery.entryPoint) (hf : s.Inside dir f)
    {imports : List String} (hg : g ∈ s.localSources f imports) : s.Inside dir g := by
  rcases hf with hf | hf
  · exact (hf.localSources hname hg).imp_right And.left
  · exact .inr ((hf.localSources hname hg).elim id And.left)

/-- No more files stand below a directory than in the tree. -/
lemma length_le_of_liesBelow {top : Path} {l : List Path} (hin : ∀ f ∈ l, s.LiesBelow top f)
    (hnodup : (l.map key).Nodup) : l.length ≤ s.files.files.size := by
  have hplaces : (l.map s.files.place?).Nodup := by
    rw [List.Nodup, List.pairwise_map] at hnodup ⊢
    refine hnodup.imp_of_mem fun {f g} hf hg hne hplace => hne ?_
    obtain ⟨_, -, hfin⟩ := hin f hf
    obtain ⟨_, -, hgin⟩ := hin g hg
    exact hfin.key_of_place? hgin hplace
  have hsub : l.map s.files.place? ⊆ s.files.files.keys.map some := by
    intro place hplace
    obtain ⟨f, hf, rfl⟩ := List.mem_map.1 hplace
    obtain ⟨_, -, hfin⟩ := hin f hf
    obtain ⟨top, c, -, hplace, hfile⟩ := hfin.place?
    rw [hplace]
    exact List.mem_map_of_mem (OrdMap.mem_keys_iff.2 ⟨c, hfile⟩)
  have hle := (List.Nodup.subperm hplaces hsub).length_le
  simpa [OrdMap.size, OrdMap.keys] using hle

/-- Each place counts at most twice: below the directory, and below the top. -/
lemma length_le_of_inside {l : List Path} (hin : ∀ f ∈ l, s.Inside dir f)
    (hnodup : (l.map key).Nodup) : l.length ≤ 2 * s.files.files.size := by
  classical
  have hpart {k : List Path} (hk : k.Sublist l) : (k.map key).Nodup := hnodup.sublist (hk.map key)
  have hbelow : (l.filter fun f => s.LiesBelow dir f).length ≤ s.files.files.size :=
    length_le_of_liesBelow (fun f hf => by simpa using (List.mem_filter.1 hf).2)
      (hpart List.filter_sublist)
  have htop : (l.filter fun f => !decide (s.LiesBelow dir f)).length ≤ s.files.files.size :=
    length_le_of_liesBelow (fun f hf => by
      obtain ⟨hf, hnot⟩ := List.mem_filter.1 hf
      exact (hin f hf).resolve_left (by simpa using hnot)) (hpart List.filter_sublist)
  have hsplit := List.length_eq_length_filter_add (l := l) fun f => decide (s.LiesBelow dir f)
  omega

/-! ## What is read -/

/-- A package with what some sources declare, one after the other. -/
def declare (s : Site) (p : Package) (units : List Source.Unit) : Package :=
  units.foldl (fun p u => p.addSource u (s.importedPackages u.imports)) p

/-- What the sources among some files hold, as far as they can be read. -/
def unitsOf (s : Site) (files : List Path) : List Source.Unit :=
  files.filterMap fun f => (s.readSource f).toOption

lemma addClass_withFiles (p : Package) (files : PathSet) (c : String × Model) :
    (p.withFiles files).addClass c = (p.addClass c).withFiles files := by
  unfold Package.addClass
  dsimp only
  split <;> rfl

lemma addSource_withFiles (p : Package) (files : PathSet) (u : Source.Unit)
    (imported : List String) :
    (p.withFiles files).addSource u imported = (p.addSource u imported).withFiles files := by
  have hclasses : u.classes.foldl Package.addClass
      (({ p with status := p.status.union u.status } : Package).withFiles files) =
      (u.classes.foldl Package.addClass
        { p with status := p.status.union u.status }).withFiles files :=
    List.foldl_hom (fun q : Package => q.withFiles files) fun q => addClass_withFiles q files
  exact congrArg (fun q : Package =>
    { q with imports := q.imports.insertMany (imported.filter fun n => n ≠ q.name) }) hclasses

lemma files_addSource (p : Package) (u : Source.Unit) (imported : List String) :
    (p.addSource u imported).files = p.files := by
  have h : p.addSource u imported = (p.addSource u imported).withFiles p.files :=
    addSource_withFiles p p.files u imported
  rw [h]
  rfl

lemma declare_withFiles (p : Package) (files : PathSet) (units : List Source.Unit) :
    s.declare (p.withFiles files) units = (s.declare p units).withFiles files :=
  List.foldl_hom (fun q : Package => q.withFiles files) fun q u => addSource_withFiles q files u _

/-- What a run ends with: what its readable files declare, and all of its files. -/
lemma eq_of_run (h : s.QueueRun entry p queue order q) :
    q = (s.declare p (s.unitsOf order)).withFiles (p.files.insertMany order) := by
  induction h with
  | done => rfl
  | skip hf hrun ih => exact ih
  | @read p f queue order q u hf hu hrun ih =>
    have hunits : s.unitsOf (f :: order) = u :: s.unitsOf order := by
      simp [unitsOf, hu, Except.toOption]
    rw [ih, hunits, files_addSource, addSource_withFiles, declare_withFiles]
    rfl
  | @fail p f queue order q e hf he hne hrun ih =>
    have hunits : s.unitsOf (f :: order) = s.unitsOf order := by
      simp [unitsOf, he, Except.toOption]
    rw [ih, hunits, declare_withFiles]
    rfl

lemma contains_of_run (h : s.QueueRun entry p queue order q) :
    q.files.contains f = true ↔ f.key ∈ order.map key ∨ p.files.contains f = true := by
  rw [eq_of_run h]
  exact PathSet.contains_insertMany

/-- A run reads each file once, and none that has been read before it. -/
lemma nodup_of_run (h : s.QueueRun entry p queue order q) :
    (order.map key).Nodup ∧ ∀ f ∈ order, p.files.contains f = false := by
  have hstep {p p' : Package} {f : Path} {order : List Path} (hf : p.files.contains f = false)
      (hp' : p'.files = p.files.insert f)
      (ih : (order.map key).Nodup ∧ ∀ g ∈ order, p'.files.contains g = false) :
      ((f :: order).map key).Nodup ∧ ∀ g ∈ f :: order, p.files.contains g = false := by
    have hnew : ∀ g ∈ order, g.key ≠ f.key ∧ p.files.contains g = false := fun g hg => by
      have := ih.2 g hg
      rw [hp', ← Bool.not_eq_true, PathSet.contains_insert, not_or, Bool.not_eq_true] at this
      exact this
    refine ⟨List.nodup_cons.2 ⟨fun hmem => ?_, ih.1⟩, ?_⟩
    · obtain ⟨g, hg, hkey⟩ := List.mem_map.1 hmem
      exact (hnew g hg).1 hkey
    · rintro g (_ | ⟨_, hg⟩)
      · exact hf
      · exact (hnew g hg).2
  induction h with
  | done => simp
  | skip hf hrun ih => exact ih
  | read hf hu hrun ih => exact hstep hf (files_addSource _ _ _) ih
  | fail hf he hne hrun ih => exact hstep hf rfl ih

/-- What holds between two steps of a run: the files of the package are those that have been read so
far, each one once, all below the directory and the entry point among them. -/
structure HasRead (s : Site) (dir entry : Path) (seen : List Path) (p : Package) : Prop where
  inside : ∀ f ∈ seen, s.Inside dir f
  nodup : (seen.map key).Nodup
  files : ∀ f, p.files.contains f = true ↔ f.key ∈ seen.map key
  entry : entry.key ∈ seen.map key

variable {seen : List Path} {p' : Package}

lemma HasRead.length_le (h : s.HasRead dir entry seen p) : seen.length ≤ 2 * s.files.files.size :=
  length_le_of_inside h.inside h.nodup

lemma HasRead.not_mem (h : s.HasRead dir entry seen p) (hf : p.files.contains f = false) :
    f.key ∉ seen.map key := fun hmem => by
  rw [(h.files f).2 hmem] at hf
  cases hf

lemma HasRead.step (h : s.HasRead dir entry seen p) (hin : s.Inside dir f)
    (hf : p.files.contains f = false) (hp' : p'.files = p.files.insert f) :
    s.HasRead dir entry (f :: seen) p' where
  inside := List.forall_mem_cons.2 ⟨hin, h.inside⟩
  nodup := List.nodup_cons.2 ⟨h.not_mem hf, h.nodup⟩
  files g := by rw [hp', PathSet.contains_insert, h.files, List.map_cons, List.mem_cons]
  entry := List.mem_cons_of_mem _ h.entry

/-- A run that has read some files ends: each further one takes a place in the tree. -/
lemma exists_run (hname : IsName s.discovery.entryPoint) (k : Nat)
    (h : s.HasRead dir entry seen p) (hk : 2 * s.files.files.size < seen.length + k)
    (hqueue : ∀ f ∈ queue, s.Inside dir f) :
    ∃ order q, s.QueueRun entry p queue order q ∧
      order.length + seen.length ≤ 2 * s.files.files.size := by
  induction k generalizing p queue seen with
  | zero => exact absurd h.length_le (by omega)
  | succ k ih =>
    induction queue with
    | nil => exact ⟨[], p, .done, by simpa using h.length_le⟩
    | cons f queue ihq =>
      obtain ⟨hfin, hqueue⟩ := List.forall_mem_cons.1 hqueue
      cases hf : p.files.contains f with
      | true =>
        obtain ⟨order, q, hrun, hlen⟩ := ihq hqueue
        exact ⟨order, q, .skip hf hrun, hlen⟩
      | false =>
        have hk' : 2 * s.files.files.size < (f :: seen).length + k := by
          rw [List.length_cons]
          omega
        cases hu : s.readSource f with
        | ok u =>
          have hqueue' : ∀ g ∈ queue ++ s.localSources f u.imports, s.Inside dir g :=
            List.forall_mem_append.2 ⟨hqueue, fun g hg => hfin.localSources hname hg⟩
          obtain ⟨order, q, hrun, hlen⟩ :=
            ih (h.step hfin hf (files_addSource (p.withFiles (p.files.insert f)) u _)) hk' hqueue'
          refine ⟨f :: order, q, .read hf hu hrun, ?_⟩
          simp only [List.length_cons] at hlen ⊢
          omega
        | error e =>
          have hne : f.key ≠ entry.key := fun hkey => h.not_mem hf (hkey ▸ h.entry)
          have hnext : s.HasRead dir entry (f :: seen) (p.withFiles (p.files.insert f)) :=
            h.step hfin hf rfl
          obtain ⟨order, q, hrun, hlen⟩ := ih hnext hk' hqueue
          refine ⟨f :: order, q, .fail hf hu hne hrun, ?_⟩
          simp only [List.length_cons] at hlen ⊢
          omega

/-! ## Reachability -/

lemma pulls_of_mem {u : Source.Unit} (hu : s.readSource f = .ok u)
    (hg : g ∈ s.localSources f u.imports) : s.Pulls f g := by
  obtain ⟨i, hi, hkind, hg⟩ := mem_localSources.1 hg
  exact ⟨u, i, g, hu, hi, hkind, hg, rfl⟩

lemma isFile_of_readSource {u : Source.Unit} (h : s.readSource f = .ok u) :
    s.files.isFile f = true := by
  unfold readSource at h
  cases htext : s.files.readText? f with
  | none => simp [htext] at h
  | some text => exact FileTree.isFile_of_readText? htext

/-- The spelling of a file makes no difference to what it imports. -/
lemma Pulls.congr_of_liesBelow (h : s.Pulls f g) {top f' : Path} (hkey : f.key = f'.key)
    (hin : s.LiesBelow top f') :
    ∃ u g', s.readSource f' = .ok u ∧ g' ∈ s.localSources f' u.imports ∧ g'.key = g.key := by
  obtain ⟨u, i, h, hu, hi, hkind, hh, hhg⟩ := h
  obtain ⟨l, hl, hbelow⟩ := hin
  have hfile := isFile_of_readSource hu
  have htrails : f.trails = f'.trails := by
    rw [FileTree.trails_of_isFile hfile, FileTree.trails_of_isFile hbelow.isFile]
  have hbelow' : Below s.files top f l :=
    ⟨hfile, (components_of_key hkey).trans hbelow.components⟩
  obtain ⟨d, hd, hdc⟩ := hbelow'.parent? hl
  obtain ⟨d', hd', hdc'⟩ := hbelow.parent? hl
  have hsame : (Import.resolve s.files s.discovery.entryPoint d i).map key = _ :=
    map_key_resolve (hdc.trans hdc'.symm) i
  rw [hd, Option.getD_some] at hh
  have hmem := List.mem_map_of_mem (f := key) hh
  rw [hsame] at hmem
  obtain ⟨g', hg', hkey'⟩ := List.mem_map.1 hmem
  refine ⟨u, g', ?_, mem_localSources.2 ⟨i, hi, hkind, by rwa [hd', Option.getD_some]⟩,
    hkey'.trans hhg⟩
  rw [readSource, ← FileTree.readText?_congr hkey htrails]
  exact hu

lemma Pulls.congr (h : s.Pulls f g) {f' : Path} (hkey : f.key = f'.key) (hin : s.Inside dir f') :
    ∃ u g', s.readSource f' = .ok u ∧ g' ∈ s.localSources f' u.imports ∧ g'.key = g.key :=
  hin.elim (h.congr_of_liesBelow hkey) (h.congr_of_liesBelow hkey)

/-- What holds of a queue and of all that its files import holds of the files that are read. -/
lemma forall_of_run {P : Path → Prop} (h : s.QueueRun entry p queue order q)
    (hstep : ∀ f ∈ order, ∀ u, P f → s.readSource f = .ok u →
      ∀ g ∈ s.localSources f u.imports, P g)
    (hqueue : ∀ f ∈ queue, P f) : ∀ f ∈ order, P f := by
  induction h with
  | done => simp
  | skip hf hrun ih => exact ih hstep fun g hg => hqueue g (List.mem_cons_of_mem _ hg)
  | @read p f queue order q u hf hu hrun ih =>
    obtain ⟨hfirst, hstep⟩ := List.forall_mem_cons.1 hstep
    have hhere := hqueue f List.mem_cons_self
    refine List.forall_mem_cons.2 ⟨hhere, ih hstep fun g hg => ?_⟩
    rcases List.mem_append.1 hg with hg | hg
    · exact hqueue g (List.mem_cons_of_mem f hg)
    · exact hfirst u hhere hu g hg
  | @fail p f queue order q e hf he hne hrun ih =>
    obtain ⟨-, hstep⟩ := List.forall_mem_cons.1 hstep
    exact List.forall_mem_cons.2 ⟨hqueue f List.mem_cons_self,
      ih hstep fun g hg => hqueue g (List.mem_cons_of_mem f hg)⟩

/-- A run ends with the files of its queue and with those that its files import. -/
lemma closed_of_run (h : s.QueueRun entry p queue order q) :
    (∀ f ∈ queue, q.files.contains f = true) ∧
      ∀ f ∈ order, ∀ u, s.readSource f = .ok u →
        ∀ g ∈ s.localSources f u.imports, q.files.contains g = true := by
  induction h with
  | done => simp
  | skip hf hrun ih =>
    refine ⟨?_, ih.2⟩
    rintro g (_ | ⟨_, hg⟩)
    · exact (contains_of_run hrun).2 (.inr hf)
    · exact ih.1 g hg
  | @read p f queue order q u hf hu hrun ih =>
    have hself : q.files.contains f = true := (contains_of_run hrun).2 (.inr (by
      rw [files_addSource]
      exact PathSet.contains_insert.2 (.inl rfl)))
    constructor
    · rintro g (_ | ⟨_, hg⟩)
      · exact hself
      · exact ih.1 g (List.mem_append_left _ hg)
    · rintro g (_ | ⟨_, hg⟩) v hv x hx
      · obtain rfl : u = v := Except.ok.inj (hu.symm.trans hv)
        exact ih.1 x (List.mem_append_right _ hx)
      · exact ih.2 g hg v hv x hx
  | @fail p f queue order q e hf he hne hrun ih =>
    have hself : q.files.contains f = true :=
      (contains_of_run hrun).2 (.inr (PathSet.contains_insert.2 (.inl rfl)))
    constructor
    · rintro g (_ | ⟨_, hg⟩)
      · exact hself
      · exact ih.1 g hg
    · rintro g (_ | ⟨_, hg⟩) v hv x hx
      · rw [he] at hv
        cases hv
      · exact ih.2 g hg v hv x hx

/-- What a run has read when it comes to files at some distance: `near` are those that stand first
in the queue, `far` those behind them, which are one import further away. -/
structure Front (s : Site) (entry dir : Path) (p : Package) (d : Nat) (near far : List Path) :
    Prop where
  inside : ∀ f ∈ near ++ far, s.Inside dir f
  reachedNear : ∀ f ∈ near, s.ReachedIn entry d f
  reachedFar : ∀ f ∈ far, s.ReachedIn entry (d + 1) f
  closer : ∀ m < d, ∀ f, s.ReachedIn entry m f → p.files.contains f = true
  here : ∀ f, s.ReachedIn entry d f → p.files.contains f = true ∨ f.key ∈ near.map key
  closed : ∀ f g, p.files.contains f = true → s.Pulls f g →
    p.files.contains g = true ∨ g.key ∈ (near ++ far).map key

variable {d : Nat} {near far : List Path}

/-- When all files of a distance are read, those of the next one stand first. -/
lemma Front.next (h : s.Front entry dir p d [] far) : s.Front entry dir p (d + 1) far [] := by
  have hhere (f : Path) (hf : s.ReachedIn entry d f) : p.files.contains f = true := by
    rcases h.here f hf with hf | hf
    · exact hf
    · simp at hf
  refine ⟨by simpa using h.inside, h.reachedFar, by simp, fun m hm f hf => ?_, fun g hg => ?_,
    fun f g hf hg => by simpa using h.closed f g hf hg⟩
  · rcases Nat.lt_succ_iff_lt_or_eq.1 hm with hm | rfl
    · exact h.closer m hm f hf
    · exact hhere f hf
  · obtain _ | ⟨hf, hpull⟩ := hg
    exact h.closed _ g (hhere _ hf) hpull

lemma Front.skip (h : s.Front entry dir p d (f :: near) far) (hf : p.files.contains f = true) :
    s.Front entry dir p d near far := by
  have hdrop {l : List Path} {g : Path}
      (hg : p.files.contains g = true ∨ g.key ∈ (f :: l).map key) :
      p.files.contains g = true ∨ g.key ∈ l.map key := by
    rcases hg with hg | hg
    · exact .inl hg
    · rcases List.mem_cons.1 hg with hkey | hg
      · exact .inl (by rw [PathSet.contains_congr _ hkey, hf])
      · exact .inr hg
  exact ⟨fun g hg => h.inside g (List.mem_cons_of_mem f hg),
    fun g hg => h.reachedNear g (List.mem_cons_of_mem f hg), h.reachedFar, h.closer,
    fun g hg => hdrop (h.here g hg), fun g x hg hpull => hdrop (h.closed g x hg hpull)⟩

/-- Reading the first file puts what it imports behind the queue. -/
lemma Front.read (h : s.Front entry dir p d (f :: near) far) {p' : Package} {new : List Path}
    (hp' : p'.files = p.files.insert f) (hinside : ∀ g ∈ new, s.Inside dir g)
    (hnew : ∀ g ∈ new, s.Pulls f g)
    (hpulled : ∀ f' g, f'.key = f.key → s.Pulls f' g → g.key ∈ new.map key) :
    s.Front entry dir p' d near (far ++ new) := by
  have hold {g : Path} :
      p'.files.contains g = true ↔ g.key = f.key ∨ p.files.contains g = true := by
    rw [hp', PathSet.contains_insert]
  have hkeep {l : List Path} {g : Path}
      (hg : p.files.contains g = true ∨ g.key ∈ (f :: l).map key) :
      p'.files.contains g = true ∨ g.key ∈ l.map key := by
    rw [List.map_cons, List.mem_cons] at hg
    rw [hold]
    tauto
  refine ⟨fun g hg => ?_, fun g hg => h.reachedNear g (List.mem_cons_of_mem f hg),
    fun g hg => ?_,
    fun m hm g hg => hold.2 (.inr (h.closer m hm g hg)), fun g hg => hkeep (h.here g hg),
    fun x g hx hpull => ?_⟩
  · rw [← List.append_assoc, List.mem_append] at hg
    exact hg.elim (fun hg => h.inside g (List.mem_cons_of_mem f hg)) (hinside g)
  · rcases List.mem_append.1 hg with hg | hg
    · exact h.reachedFar g hg
    · exact (h.reachedNear f List.mem_cons_self).pull (hnew g hg)
  · rw [← List.append_assoc, List.map_append, List.mem_append]
    rcases hold.1 hx with hkey | hx
    · exact .inr (.inr (hpulled x g hkey hpull))
    · rcases hkeep (l := near ++ far) (h.closed x g hx hpull) with hg | hg
      · exact .inl hg
      · exact .inr (.inl hg)

/-- A queue that is not empty begins with a file of the distance that the run has come to. -/
lemma Front.first (h : s.Front entry dir p d near far) (hq : near ++ far = f :: queue) :
    ∃ d' near' far', d ≤ d' ∧ queue = near' ++ far' ∧ s.Front entry dir p d' (f :: near') far' := by
  cases near with
  | nil =>
    obtain rfl : far = f :: queue := hq
    exact ⟨d + 1, queue, [], Nat.le_succ d, by simp, h.next⟩
  | cons a near =>
    obtain ⟨rfl, rfl⟩ := List.cons.inj hq
    exact ⟨d, near, far, Nat.le_refl d, rfl, h⟩

lemma Front.distance (h : s.Front entry dir p d (f :: near) far) (hf : p.files.contains f = false) :
    s.Distance entry d f :=
  ⟨h.reachedNear f List.mem_cons_self, fun m hm hreach => by
    rw [h.closer m hm f hreach] at hf
    cases hf⟩

lemma Distance.unique {m n : Nat} (hm : s.Distance entry m f) (hn : s.Distance entry n f) :
    m = n := by
  rcases Nat.lt_trichotomy m n with h | h | h
  · exact absurd hm.1 (hn.2 m h)
  · exact h
  · exact absurd hn.1 (hm.2 n h)

/-- Files in the order of their distances, none of them nearer than the first one. -/
structure ByDistance (s : Site) (entry : Path) (d : Nat) (order : List Path) : Prop where
  far : ∀ g ∈ order, ∃ n, d ≤ n ∧ s.Distance entry n g
  sorted : order.Pairwise fun f g => ∀ m n, s.Distance entry m f → s.Distance entry n g → m ≤ n

lemma ByDistance.nearer {d' : Nat} (h : s.ByDistance entry d' order) (hd : d ≤ d') :
    s.ByDistance entry d order where
  far g hg := by
    obtain ⟨n, hn, hgn⟩ := h.far g hg
    exact ⟨n, hd.trans hn, hgn⟩
  sorted := h.sorted

lemma ByDistance.cons (h : s.ByDistance entry d order) (hf : s.Distance entry d f) :
    s.ByDistance entry d (f :: order) where
  far := List.forall_mem_cons.2 ⟨⟨d, Nat.le_refl d, hf⟩, h.far⟩
  sorted := List.pairwise_cons.2 ⟨fun g hg m n hm hn => by
    obtain ⟨n', hn', hgn⟩ := h.far g hg
    rw [hm.unique hf, hn.unique hgn]
    exact hn', h.sorted⟩

/-- **Breadth first.** From a front on, files are read by their distance. -/
lemma byDistance_of_run (hname : IsName s.discovery.entryPoint)
    (h : s.QueueRun entry p queue order q) (hq : queue = near ++ far)
    (hfront : s.Front entry dir p d near far) : s.ByDistance entry d order := by
  induction h generalizing d near far with
  | done => exact ⟨by simp, .nil⟩
  | skip hf hrun ih =>
    obtain ⟨d', near', far', hd, rfl, hfront'⟩ := hfront.first hq.symm
    exact (ih rfl (hfront'.skip hf)).nearer hd
  | @read p f queue order q u hf hu hrun ih =>
    obtain ⟨d', near', far', hd, rfl, hfront'⟩ := hfront.first hq.symm
    have hfin := hfront'.inside f List.mem_cons_self
    have hread := hfront'.read
      (files_addSource (p.withFiles (p.files.insert f)) u (s.importedPackages u.imports))
      (fun g hg => hfin.localSources hname hg) (fun g hg => pulls_of_mem hu hg)
      fun f' g hkey hpull => by
        obtain ⟨v, g', hv, hg', hkey'⟩ := hpull.congr hkey hfin
        obtain rfl : u = v := Except.ok.inj (hu.symm.trans hv)
        exact hkey' ▸ List.mem_map_of_mem hg'
    exact ((ih (List.append_assoc _ _ _) hread).cons (hfront'.distance hf)).nearer hd
  | @fail p f queue order q e hf he hne hrun ih =>
    obtain ⟨d', near', far', hd, rfl, hfront'⟩ := hfront.first hq.symm
    have hread : s.Front entry dir (p.withFiles (p.files.insert f)) d' near' (far' ++ []) := by
      refine hfront'.read rfl (by simp) (by simp) fun f' g hkey hpull => ?_
      obtain ⟨v, g', hv, -⟩ := hpull.congr hkey (hfront'.inside f List.mem_cons_self)
      rw [he] at hv
      cases hv
    exact ((ih (by rw [List.append_nil]) hread).cons (hfront'.distance hf)).nearer hd

/-! ## Packages -/

lemma liesBelow_entry (hname : IsName s.discovery.entryPoint) {u : Source.Unit}
    (hentry : s.readSource (dir.join s.discovery.entryPoint) = .ok u) :
    s.LiesBelow dir (dir.join s.discovery.entryPoint) :=
  ⟨[s.discovery.entryPoint], by simp, isFile_of_readSource hentry, components_join_name dir hname⟩

lemma exists_run_entry (hname : IsName s.discovery.entryPoint) (hfiles : p.files = .empty)
    {u : Source.Unit} (hentry : s.readSource (dir.join s.discovery.entryPoint) = .ok u) :
    ∃ order q, s.QueueRun (dir.join s.discovery.entryPoint) p [dir.join s.discovery.entryPoint]
      order q ∧ order.length ≤ 2 * s.files.files.size := by
  have hin : s.Inside dir _ := .inl (liesBelow_entry hname hentry)
  set entry := dir.join s.discovery.entryPoint
  set next := (p.withFiles (p.files.insert entry)).addSource u (s.importedPackages u.imports)
    with hnext
  have hstart : s.HasRead dir entry [entry] next :=
    { inside := by simpa using hin
      nodup := by simp
      files := fun f => by
        rw [hnext, files_addSource]
        simp [Package.withFiles, PathSet.contains_insert, hfiles]
      entry := by simp }
  obtain ⟨order, q, hrun, hlen⟩ : ∃ order q,
      s.QueueRun entry next ([] ++ s.localSources entry u.imports) order q ∧
        order.length + [entry].length ≤ 2 * s.files.files.size :=
    exists_run hname (2 * s.files.files.size) hstart (by simp) fun g hg => hin.localSources hname hg
  refine ⟨entry :: order, q, .read (by simp [hfiles]) hentry hrun, ?_⟩
  simpa using hlen

/-- Sources that are read to an end are read in a run. -/
lemma exists_run_of_readSources (hname : IsName s.discovery.entryPoint) (hfiles : p.files = .empty)
    (h : s.readSources p (dir.join s.discovery.entryPoint) = .ok q) :
    ∃ order, s.QueueRun (dir.join s.discovery.entryPoint) p [dir.join s.discovery.entryPoint]
      order q := by
  cases hentry : s.readSource (dir.join s.discovery.entryPoint) with
  | error e => simp [readSources, readQueue, hfiles, hentry] at h
  | ok u =>
    obtain ⟨order, q', hrun, hlen⟩ := exists_run_entry hname hfiles hentry
    rw [readSources, readQueue_of_run hrun (by omega)] at h
    obtain rfl := Except.ok.inj h
    exact ⟨order, hrun⟩

/-- The files of a package are closed under imports. -/
lemma contains_of_pulls (hname : IsName s.discovery.entryPoint)
    (hfiles : p.files = .empty) (h : s.readSources p (dir.join s.discovery.entryPoint) = .ok q)
    (hf : q.files.contains f = true) (hpull : s.Pulls f g) : q.files.contains g = true := by
  obtain ⟨u, hu⟩ : ∃ u, s.readSource (dir.join s.discovery.entryPoint) = .ok u := by
    cases hu : s.readSource (dir.join s.discovery.entryPoint) with
    | error e => simp [readSources, readQueue, hfiles, hu] at h
    | ok u => exact ⟨u, rfl⟩
  obtain ⟨order, hrun⟩ := exists_run_of_readSources hname hfiles h
  have hinside : ∀ f ∈ order, s.Inside dir f :=
    forall_of_run hrun (fun _ _ _ hf _ _ hg => hf.localSources hname hg)
      (by simpa using .inl (liesBelow_entry hname hu))
  rw [contains_of_run hrun, hfiles] at hf
  obtain ⟨f', hf', hkey⟩ := List.mem_map.1 (hf.resolve_right (by simp))
  obtain ⟨v, g', hv, hg', hkey'⟩ := hpull.congr hkey.symm (hinside f' hf')
  rw [← PathSet.contains_congr _ hkey']
  exact (closed_of_run hrun).2 f' hf' v hv g' hg'

/-- At the beginning the entry point stands in front. -/
lemma Front.start (hfiles : p.files = .empty) (hin : s.Inside dir entry) :
    s.Front entry dir p 0 [entry] [] where
  inside := by simpa using hin
  reachedNear := by simpa using ReachedIn.entry rfl
  reachedFar := by simp
  closer := by simp
  here f hf := by
    obtain ⟨hkey⟩ := hf
    exact .inr (by simpa using hkey)
  closed f g hf := by simp [hfiles] at hf

/-- **Sources.** The sources of a package are read to an end: those that imports lead to from its
entry point, each one once and by their distance from it. All of them count as its files, and it
declares what those say that can be read. They lie below its directory unless an import has an
absolute segment, which leads below the top. -/
theorem readSources_reached (s : Site) (p : Package) (dir : Path) (u : Source.Unit)
    (hname : IsName s.discovery.entryPoint) (hfiles : p.files = .empty)
    (hentry : s.readSource (dir.join s.discovery.entryPoint) = .ok u) :
    ∃ q order, s.readSources p (dir.join s.discovery.entryPoint) = .ok q ∧
      s.QueueRun (dir.join s.discovery.entryPoint) p [dir.join s.discovery.entryPoint] order q ∧
      (∀ f, q.files.contains f = true ↔ ∃ n, s.ReachedIn (dir.join s.discovery.entryPoint) n f) ∧
      (∀ f, q.files.contains f = true ↔ f.key ∈ order.map key) ∧ (order.map key).Nodup ∧
      (order.Pairwise fun f g => ∀ m n, s.Distance (dir.join s.discovery.entryPoint) m f →
        s.Distance (dir.join s.discovery.entryPoint) n g → m ≤ n) ∧
      q = (s.declare p (s.unitsOf order)).withFiles (PathSet.ofList order) ∧
      (∀ f, q.files.contains f = true → ∃ l : List String, l ≠ [] ∧
        (f.components = dir.components ++ l.map .name ∨ f.components = .root :: l.map .name)) ∧
      ((∀ f ∈ order, ∀ v, s.readSource f = .ok v → ∀ i ∈ v.imports,
          Import.classify s.discovery i = .localSource → StaysBelow i) →
        ∀ f, q.files.contains f = true →
          ∃ l : List String, l ≠ [] ∧ f.components = dir.components ++ l.map .name) := by
  obtain ⟨order, q, hrun, hlen⟩ := exists_run_entry hname hfiles hentry
  have hin : s.Inside dir _ := .inl (liesBelow_entry hname hentry)
  set entry := dir.join s.discovery.entryPoint
  have hmem (f : Path) : q.files.contains f = true ↔ f.key ∈ order.map key := by
    simp [contains_of_run hrun, hfiles]
  have hinside : ∀ f ∈ order, s.Inside dir f :=
    forall_of_run hrun (fun _ _ _ hf _ _ hg => hf.localSources hname hg) (by simpa using hin)
  have hreached : ∀ f ∈ order, ∃ n, s.ReachedIn entry n f :=
    forall_of_run hrun (fun _ _ _ ⟨n, hn⟩ hu _ hg => ⟨n + 1, hn.pull (pulls_of_mem hu hg)⟩)
      (by simpa using ⟨0, ReachedIn.entry rfl⟩)
  obtain ⟨hqueue, hclosed⟩ := closed_of_run hrun
  have hcomplete {n : Nat} {f : Path} (hf : s.ReachedIn entry n f) : q.files.contains f = true := by
    induction hf with
    | entry hkey =>
      rw [PathSet.contains_congr _ hkey]
      exact hqueue entry (by simp)
    | @pull n f g hf hpull ih =>
      obtain ⟨f', hf', hkey⟩ := List.mem_map.1 ((hmem f).1 ih)
      obtain ⟨v, g', hv, hg', hkey'⟩ := hpull.congr hkey.symm (hinside f' hf')
      rw [← PathSet.contains_congr _ hkey']
      exact hclosed f' hf' v hv g' hg'
  refine ⟨q, order, readQueue_of_run hrun (by omega), hrun, fun f => ⟨fun hf => ?_, ?_⟩, hmem,
    (nodup_of_run hrun).1, (byDistance_of_run hname hrun rfl (Front.start hfiles hin)).sorted, ?_,
    fun f hf => ?_, fun hstays f hf => ?_⟩
  · obtain ⟨f', hf', hkey⟩ := List.mem_map.1 ((hmem f).1 hf)
    obtain ⟨n, hn⟩ := hreached f' hf'
    exact ⟨n, hn.congr hkey⟩
  · rintro ⟨n, hn⟩
    exact hcomplete hn
  · rw [eq_of_run hrun, hfiles]
    rfl
  · obtain ⟨f', hf', hkey⟩ := List.mem_map.1 ((hmem f).1 hf)
    rcases hinside f' hf' with ⟨l, hl, hbelow⟩ | ⟨l, hl, hbelow⟩
    · exact ⟨l, hl, .inl (components_of_key hkey ▸ hbelow.components)⟩
    · have hcomps : f.components = _ := components_of_key hkey ▸ hbelow.components
      exact ⟨l, hl, .inr (by rw [hcomps, components_slash]; rfl)⟩
  · have hbelow : ∀ f ∈ order, s.LiesBelow dir f := by
      refine forall_of_run hrun (fun f hf v hfin hv g hg => ?_)
        (by simpa using liesBelow_entry hname hentry)
      rcases hfin.localSources hname hg with hg | ⟨-, i, hi, hkind, hout⟩
      · exact hg
      · exact absurd (hstays f hf v hv i hi hkind) hout
    obtain ⟨f', hf', hkey⟩ := List.mem_map.1 ((hmem f).1 hf)
    obtain ⟨l, hl, hfin⟩ := hbelow f' hf'
    exact ⟨l, hl, components_of_key hkey ▸ hfin.components⟩

/-- A package whose entry point imports a source that imports itself. -/
def leadSite : Site where
  files := (({} : FileTree).addFile ["sale", "__init__.py"]
    "import lead\n".toUTF8).addFile ["sale", "lead.py"] "import lead\n".toUTF8

theorem readSources_reached_lead : ∃ q,
    leadSite.readSources (Package.ofPath ⟨"sale"⟩) ((Path.mk "sale").join "__init__.py") = .ok q ∧
      ∀ f, q.files.contains f = true ↔
        ∃ n, leadSite.ReachedIn ((Path.mk "sale").join "__init__.py") n f := by
  have hplace : leadSite.files.place? ((Path.mk "sale").join "__init__.py") =
      some ["sale", "__init__.py"] := by
    rw [FileTree.place?_join _ (by decide) (by decide), FileTree.place?_of_isName rfl (by decide)]
    decide +kernel
  have htext := FileTree.readText?_of_toUTF8 (FileTree.readBytes?_eq_some_iff.2
    ⟨_, hplace, by decide +kernel, rfl⟩)
  obtain ⟨u, hu⟩ : ∃ u, leadSite.readSource ((Path.mk "sale").join "__init__.py") = .ok u := by
    obtain ⟨u, hu, -⟩ := exists_of_toOption_map
      (by decide +kernel : (Source.Unit.ofText (Source.runConverter .empty {})
        "import lead\n").toOption.map Source.Unit.imports = some ["lead"])
    rw [readSource, htext]
    exact ⟨u, hu⟩
  obtain ⟨q, -, hread, -, hmem, -⟩ := readSources_reached leadSite
    (Package.ofPath ⟨"sale"⟩) ⟨"sale"⟩ u (by decide) rfl hu
  exact ⟨q, hread, hmem⟩

/-- A package whose import has an absolute segment: a comment in it brings the slashes. -/
def strayTree : FileTree :=
  ((({} : FileTree).addFile ["sale", "__init__.py"]
    "import a.#./tmp/other.\nb\n".toUTF8).addDirectory ["sale", "a", "#"]).addFile
      ["tmp", "other.py"] "".toUTF8

def straySite : Site := { files := strayTree }

lemma lookup_strayTree {text : String} (l : List String) (hl : l ≠ [])
    (h : ∀ s ∈ l, '/' ∉ s.toList) (htext : text = "/".intercalate l) :
    strayTree.lookup ⟨text⟩ = if text.isEmpty then none else
      (strayTree.follow [] l).bind strayTree.node? := by
  have hseg : (Path.mk text).segments = l := htext ▸ segments_intercalate hl h
  have hfrom : strayTree.fromTop ⟨text⟩ = l := by
    unfold FileTree.fromTop
    rw [hseg]
    exact ite_self l
  rw [FileTree.lookup, FileTree.place?, hfrom]
  split <;> rfl

lemma resolve_strayTree : Import.resolve strayTree "__init__.py" ⟨"sale"⟩ "a.#./tmp/other.\nb" =
    [⟨"/tmp/other.py"⟩] := by
  have hsegs : (String.ofList ("a.#./tmp/other.\nb".toList.dropWhile (· == '.'))).splitOn "." =
      ["a", "#", "/tmp/other", "\nb"] :=
    Text.splitOn_intercalate (l := ["a", "#", "/tmp/other", "\nb"]) (c := '.') (by decide)
      (by decide)
  have hfirst : strayTree.isFile ⟨"sale/a.py"⟩ = false ∧
      strayTree.isFile ⟨"sale/a/__init__.py"⟩ = false ∧
      strayTree.isDirectory ⟨"sale/a"⟩ = true := by
    unfold FileTree.isFile FileTree.isDirectory
    rw [lookup_strayTree ["sale", "a.py"], lookup_strayTree ["sale", "a", "__init__.py"],
      lookup_strayTree ["sale", "a"]] <;> decide +kernel
  have hsecond : strayTree.isFile ⟨"sale/a/#.py"⟩ = false ∧
      strayTree.isFile ⟨"sale/a/#/__init__.py"⟩ = false ∧
      strayTree.isDirectory ⟨"sale/a/#"⟩ = true := by
    unfold FileTree.isFile FileTree.isDirectory
    rw [lookup_strayTree ["sale", "a", "#.py"], lookup_strayTree ["sale", "a", "#", "__init__.py"],
      lookup_strayTree ["sale", "a", "#"]] <;> decide +kernel
  have hthird : strayTree.isFile ⟨"/tmp/other.py"⟩ = true := by
    unfold FileTree.isFile
    rw [lookup_strayTree ["", "tmp", "other.py"]] <;> decide +kernel
  obtain ⟨h₁, h₂, h₃⟩ := hfirst
  obtain ⟨h₄, h₅, h₆⟩ := hsecond
  rw [Import.resolve, hsegs]
  simp [Import.resolveSegments, Path.join, h₁, h₂, h₃, h₄, h₅, h₆, hthird]

lemma localSources_strayTree : ∃ u,
    straySite.readSource ((Path.mk "sale").join "__init__.py") = .ok u ∧
      straySite.localSources ((Path.mk "sale").join "__init__.py") u.imports =
        [⟨"/tmp/other.py"⟩] := by
  have hplace : strayTree.place? ((Path.mk "sale").join "__init__.py") =
      some ["sale", "__init__.py"] := by
    rw [FileTree.place?_join _ (by decide) (by decide), FileTree.place?_of_isName rfl (by decide)]
    decide +kernel
  have htext := FileTree.readText?_of_toUTF8 (FileTree.readBytes?_eq_some_iff.2
    ⟨_, hplace, by decide +kernel, rfl⟩)
  obtain ⟨u, hu, himports⟩ := exists_of_toOption_map
    (by decide +kernel : (Source.Unit.ofText (Source.runConverter .empty {})
      "import a.#./tmp/other.\nb\n").toOption.map (·.imports) = some ["a.#./tmp/other.\nb"])
  have hlocal : Import.classify straySite.discovery "a.#./tmp/other.\nb" = .localSource := by
    decide +kernel
  have hparent : ((Path.mk "sale").join "__init__.py").parent? = some ⟨"sale"⟩ := by
    rw [parent?, components_join_name _ (by decide), List.getLast?_concat]
    decide +kernel
  refine ⟨u, ?_, ?_⟩
  · rw [readSource, show straySite.files = strayTree from rfl, htext]
    exact hu
  · rw [himports, localSources, List.flatMap_singleton, hlocal, hparent]
    exact resolve_strayTree

/-- It is not so that all sources of a package lie below its directory. -/
theorem not_forall_below_of_readSources : ¬ ∀ (s : Site) (p q : Package) (dir : Path),
    IsName s.discovery.entryPoint → p.files = .empty →
    s.readSources p (dir.join s.discovery.entryPoint) = .ok q →
    ∀ f, q.files.contains f = true →
      ∃ l : List String, l ≠ [] ∧ f.components = dir.components ++ l.map .name := by
  intro h
  obtain ⟨u, hu, hsources⟩ := localSources_strayTree
  obtain ⟨order, q, hrun, hlen⟩ :=
    exists_run_entry (s := straySite) (p := Package.ofPath ⟨"sale"⟩) (by decide) rfl hu
  have hread := readQueue_of_run hrun (Nat.lt_succ_of_le hlen)
  have hcontains : q.files.contains ⟨"/tmp/other.py"⟩ = true := by
    obtain ⟨rest, rfl, -⟩ := hrun.of_read rfl hu
    exact (closed_of_run hrun).2 _ List.mem_cons_self u hu _
      (hsources ▸ List.mem_singleton_self _)
  obtain ⟨l, -, hcomps⟩ := h straySite _ q ⟨"sale"⟩ (by decide) rfl hread _ hcontains
  have hsegs : (Path.mk "/tmp/other.py").segments = ["", "tmp", "other.py"] :=
    segments_intercalate (l := ["", "tmp", "other.py"]) (by decide) (by decide)
  rw [components, hsegs, components_of_isName (by decide)] at hcomps
  exact absurd (List.cons.inj hcomps).1 (by decide)

end Site

end AddonAtlas
