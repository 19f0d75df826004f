import AddonAtlas.Proofs.Discovery.Contents
import AddonAtlas.Proofs.Files.PathSets
import AddonAtlas.Proofs.Files.Places
import AddonAtlas.Proofs.Package.Records

/-!
Data files that a manifest lists twice.

A data file is read as often as it is listed. The second time all that it puts into sets is there
already, but its rows are counted again, and merging its records with themselves adds their
complexity and their lines once more.
-/

namespace AddonAtlas

open AddonAtlas.Path

namespace Record

/-- Add the complexity and the lines of another declaration of the same record. -/
def addWeight (old r : Record) : Record :=
  if old.name = r.name then
    { old with complexity := old.complexity + r.complexity, lines := old.lines + r.lines }
  else old

lemma name_addWeight (old r : Record) : (old.addWeight r).name = old.name := by
  unfold addWeight
  split <;> rfl

lemma merge_addWeight (old x r : Record) :
    (old.addWeight x).merge r = (old.merge r).addWeight x := by
  rw [merge, name_addWeight, merge]
  by_cases hr : old.name = r.name
  · rw [if_pos hr, if_pos hr]
    by_cases hx : old.name = x.name
    · rw [addWeight, if_pos hx, addWeight, if_pos hx]
      congr 1 <;> dsimp only <;> ac_rfl
    · rw [addWeight, if_neg hx, addWeight, if_neg hx]
  · rw [if_neg hr, if_neg hr]

/-- Merging a record that calls nothing new only adds its weight. -/
lemma merge_eq_addWeight {old r : Record}
    (h : old.name = r.name → r.calls.toList ⊆ old.calls.toList) :
    old.merge r = old.addWeight r := by
  unfold merge addWeight
  split
  · rename_i hname
    rw [OrdSet.union_of_subset (h hname)]
  · rfl

/-- Add the weight of some declarations of the records of a map. -/
def reweigh (m : NameMap Record) (rs : List Record) : NameMap Record :=
  m.mapValues fun k old => (rs.filter fun r => r.name = k).foldl addWeight old

lemma reweigh_nil (m : NameMap Record) : reweigh m [] = m :=
  OrdMap.ext_get? fun k => by simp [reweigh]

lemma reweigh_append (m : NameMap Record) (rs rs' : List Record) :
    reweigh m (rs ++ rs') = reweigh (reweigh m rs) rs' :=
  OrdMap.ext_get? fun k => by
    cases h : m.get? k <;> simp [reweigh, h]

lemma merge_foldl_addWeight (old r : Record) (rs : List Record) :
    (rs.foldl addWeight old).merge r = rs.foldl addWeight (old.merge r) :=
  (List.foldl_hom (fun old => old.merge r) fun old x => (merge_addWeight old x r).symm).symm

end Record

namespace Package

open Record

/-- Weight that is added to records of a map stays when another record is filed. -/
lemma fileRecord_reweigh {m : NameMap Record} {rs : List Record}
    (h : ∀ x ∈ rs, m.contains x.name = true) (r : Record) :
    fileRecord (reweigh m rs) r = reweigh (fileRecord m r) rs := by
  refine OrdMap.ext_get? fun k => ?_
  simp only [get?_fileRecord, reweigh, OrdMap.get?_mapValues]
  split
  · cases hold : m.get? k with
    | some old => simp [merge_foldl_addWeight]
    | none =>
      -- no weight is added to a record that the map does not have
      have hnone : rs.filter (fun x => x.name = k) = [] := by
        refine List.filter_eq_nil_iff.2 fun x hx hk => ?_
        rw [decide_eq_true_eq] at hk
        obtain ⟨old, hx⟩ := OrdMap.contains_iff_exists.1 (h x hx)
        rw [hk, hold] at hx
        cases hx
      simp [hnone]
  · rfl

/-- Filing a record that is there and calls nothing new only adds its weight. -/
lemma fileRecord_eq_reweigh {m : NameMap Record} {r old : Record} (hold : m.get? r.name = some old)
    (hcalls : old.name = r.name → r.calls.toList ⊆ old.calls.toList) :
    fileRecord m r = reweigh m [r] := by
  refine OrdMap.ext_get? fun k => ?_
  rw [get?_fileRecord, reweigh, OrdMap.get?_mapValues]
  split
  · rename_i hk
    simp [hk, hold, merge_eq_addWeight hcalls]
  · rename_i hk
    have hne : ¬ r.name = k := fun h => hk h.symm
    simp [hne]

/-- A package with more rows, and with the weight of some records added once more. -/
def recount (p : Package) (rows : UInt64) (rs : List Record) : Package :=
  { p with
    views := reweigh p.views (rs.filter fun r => r.view = true)
    records := reweigh p.records (rs.filter fun r => r.view = false)
    dataCount := p.dataCount + rows }

/-- A record is filed, with all that it calls. -/
def Holds (p : Package) (r : Record) : Prop :=
  ∃ old, (p.recordMap r.view).get? r.name = some old ∧
    (old.name = r.name → r.calls.toList ⊆ old.calls.toList)

lemma Holds.contains {p : Package} {r : Record} (h : p.Holds r) :
    (p.recordMap r.view).contains r.name = true := by
  obtain ⟨old, hold, -⟩ := h
  exact OrdMap.contains_iff_exists.2 ⟨old, hold⟩

/-- Weight that is added to the records of a package stays when another record is filed. -/
lemma mergeRecord_recount {p : Package} {rs : List Record} (h : ∀ x ∈ rs, p.Holds x)
    (rows : UInt64) (r : Record) :
    (p.recount rows rs).mergeRecord r = (p.mergeRecord r).recount rows rs := by
  have hmap (view : Bool) : ∀ x ∈ rs.filter (fun r => r.view = view),
      (p.recordMap view).contains x.name = true := fun x hx => by
    obtain ⟨hx, hview⟩ := List.mem_filter.1 hx
    exact of_decide_eq_true hview ▸ (h x hx).contains
  have hviews : fileRecord (p.recount rows rs).views r = _ := fileRecord_reweigh (hmap true) r
  have hrecords : fileRecord (p.recount rows rs).records r = _ := fileRecord_reweigh (hmap false) r
  rw [mergeRecord, mergeRecord]
  split
  · rw [hviews]
    rfl
  · rw [hrecords]
    rfl

/-- Filing a record that is there already only adds its weight. -/
lemma mergeRecord_eq_recount {p : Package} {r : Record} (h : p.Holds r) :
    p.mergeRecord r = p.recount 0 [r] := by
  obtain ⟨old, hold, hcalls⟩ := h
  have hfile := fileRecord_eq_reweigh hold hcalls
  cases hr : r.view <;> simp [mergeRecord, recount, recordMap, hr, reweigh_nil] at hfile ⊢ <;>
    exact hfile

lemma recount_append (p : Package) (a b : UInt64) (rs rs' : List Record) :
    (p.recount a rs).recount b rs' = p.recount (a + b) (rs ++ rs') := by
  simp [recount, reweigh_append, UInt64.add_assoc]

lemma recount_zero (p : Package) : p.recount 0 [] = p := by
  simp [recount, reweigh_nil]

/-! ## Growing packages -/

/-- What a package only gains while data files are read. -/
structure Grows (p q : Package) : Prop where
  name : q.name = p.name
  status : p.status.toList ⊆ q.status.toList
  refers : p.refers.toList ⊆ q.refers.toList
  files : ∀ f, p.files.contains f = true → q.files.contains f = true
  keyed : p.files.Keyed → q.files.Keyed
  holds : ∀ r, p.Holds r → q.Holds r

variable {p q : Package}

lemma Grows.refl (p : Package) : p.Grows p :=
  ⟨rfl, List.Subset.refl _, List.Subset.refl _, fun _ => id, id, fun _ => id⟩

lemma Grows.trans {o : Package} (h : o.Grows p) (h' : p.Grows q) : o.Grows q :=
  ⟨h'.name.trans h.name, List.Subset.trans h.status h'.status,
    List.Subset.trans h.refers h'.refers, fun f hf => h'.files f (h.files f hf),
    fun hkeyed => h'.keyed (h.keyed hkeyed), fun r hr => h'.holds r (h.holds r hr)⟩

lemma Grows.foldl {β : Type u} {step : Package → β → Package}
    (h : ∀ (p : Package) b, p.Grows (step p b))
    (l : List β) (p : Package) : p.Grows (l.foldl step p) := by
  induction l generalizing p with
  | nil => exact .refl p
  | cons b l ih => exact (h p b).trans (ih (step p b))

lemma grows_insert (p : Package) (f : Path) : p.Grows { p with files := p.files.insert f } :=
  { Grows.refl p with
    files := fun _ hg => PathSet.contains_insert.2 (.inr hg)
    keyed := fun hkeyed => hkeyed.insert f }

lemma holds_mergeRecord (p : Package) (r : Record) : (p.mergeRecord r).Holds r := by
  rw [Holds, recordMap_mergeRecord, if_pos rfl, get?_fileRecord, if_pos rfl]
  refine ⟨_, rfl, ?_⟩
  cases hold : (p.recordMap r.view).get? r.name with
  | none => exact fun _ => List.Subset.refl _
  | some old =>
    intro hname
    have hname : old.name = r.name := (name_merge old r).symm.trans hname
    simp only [Option.map_some, Option.getD_some, Record.merge, if_pos hname]
    exact fun x hx => OrdSet.mem_union.2 (.inr hx)

lemma grows_mergeRecord (p : Package) (r : Record) : p.Grows (p.mergeRecord r) := by
  have hholds (x : Record) (hx : p.Holds x) : (p.mergeRecord r).Holds x := by
    obtain ⟨old, hold, hcalls⟩ := hx
    rw [Holds, recordMap_mergeRecord]
    by_cases hview : r.view = x.view
    · rw [if_pos hview, get?_fileRecord, hold]
      by_cases hname : x.name = r.name
      · refine ⟨old.merge r, by rw [if_pos hname]; rfl, fun h => ?_⟩
        rw [name_merge] at h
        exact List.Subset.trans (hcalls h) (calls_merge old r)
      · exact ⟨old, by rw [if_neg hname], hcalls⟩
    · rw [if_neg hview]
      exact ⟨old, hold, hcalls⟩
  unfold mergeRecord at hholds ⊢
  split
  · rename_i hr
    simp only [hr, if_true] at hholds
    exact { Grows.refl p with holds := hholds }
  · rename_i hr
    simp only [hr] at hholds
    exact { Grows.refl p with holds := hholds }

/-- What each step of a run brings about, and growing keeps, holds of the whole run. -/
lemma Grows.forall_foldl {β : Type u} {step : Package → β → Package} {P : Package → β → Prop}
    (hgrows : ∀ (p : Package) b, p.Grows (step p b)) (hstep : ∀ p b, P (step p b) b)
    (hkeep : ∀ p q b, Grows p q → P p b → P q b) (l : List β) (p : Package) :
    ∀ b ∈ l, P (l.foldl step p) b := by
  induction l generalizing p with
  | nil => simp
  | cons a l ih =>
    exact List.forall_mem_cons.2
      ⟨hkeep _ _ a (Grows.foldl hgrows l (step p a)) (hstep p a), ih (step p a)⟩

lemma foldl_mergeRecord_recount {rs : List Record} (rows : UInt64) (l : List Record) {p : Package}
    (h : ∀ x ∈ rs, p.Holds x) :
    l.foldl mergeRecord (p.recount rows rs) = (l.foldl mergeRecord p).recount rows rs := by
  induction l generalizing p with
  | nil => rfl
  | cons r l ih =>
    rw [List.foldl_cons, mergeRecord_recount h, List.foldl_cons]
    exact ih fun x hx => (grows_mergeRecord p r).holds x (h x hx)

lemma foldl_mergeRecord_eq_recount {l : List Record} {p : Package} (h : ∀ x ∈ l, p.Holds x) :
    l.foldl mergeRecord p = p.recount 0 l := by
  induction l generalizing p with
  | nil => exact (recount_zero p).symm
  | cons r l ih =>
    obtain ⟨hr, hl⟩ := List.forall_mem_cons.1 h
    rw [List.foldl_cons, ih fun x hx => (grows_mergeRecord p r).holds x (hl x hx),
      mergeRecord_eq_recount hr, recount_append]
    rfl

end Package

/-! ## One data file -/

/-- What a data file holds, for a package of some name. -/
inductive DataFile
  | passed
  | missing
  | failed (e : DataFileError)
  | table (rows : UInt64)
  | markup (u : Markup.Unit)

namespace DataFile

/-- The rows that a data file adds each time it is read. -/
def rows : DataFile → UInt64
  | .table n => n
  | _ => 0

/-- The records whose weight a data file adds each time it is read. -/
def records : DataFile → List Record
  | .markup u => u.records
  | _ => []

end DataFile

namespace Site

variable {s : Site} {parent f g : Path} {p q : Package} {x : DataFile}

def dataFile (s : Site) (package : String) (file : Path) : DataFile :=
  let extension := file.extension?
  if extension ≠ some "xml" && extension ≠ some "csv" then .passed
  else if !s.files.isFile file then .missing
  else match s.files.readText? file with
    | none =>
      .failed (if extension = some "csv" then .unreadableTable file else .unreadableMarkup file)
    | some content =>
      if extension = some "csv" then .table (UInt64.ofNat (tableRows content))
      else match Markup.Unit.ofText? package content with
        | none => .failed (.malformedMarkup file)
        | some u => .markup u

/-- Add what a data file holds. -/
def addDataFile (s : Site) (parent : Path) (p : Package) (file : Path) :
    DataFile → Except DataFileError Package
  | .passed => .ok p
  | .missing => .ok { p with status := p.status.insert Status.missingFile }
  | .failed e => .error e
  | .table rows => .ok { p with files := p.files.insert file, dataCount := p.dataCount + rows }
  | .markup u => .ok (s.addMarkup parent { p with files := p.files.insert file } u)

lemma readDataFile_eq (s : Site) (parent : Path) (p : Package) (file : Path) :
    s.readDataFile parent p file = s.addDataFile parent p file (s.dataFile p.name file) := by
  unfold readDataFile dataFile
  dsimp only
  split_ifs with hkind hfile hcsv
  · rfl
  · rfl
  · cases s.files.readText? file <;> rfl
  · cases s.files.readText? file with
    | none => rfl
    | some content =>
      dsimp only
      cases Markup.Unit.ofText? p.name content <;> rfl

/-- The script that markup names. -/
def namedScript (parent : Path) (source : String) : Path :=
  parent.join (String.ofList (source.toList.dropWhile (· == '/')))

/-- The script that markup names is read, if it is one. -/
def ScriptRead (s : Site) (parent : Path) (p : Package) (source : String) : Prop :=
  (s.files.isFile (namedScript parent source) && isScript (namedScript parent source)) = true →
    p.files.contains (namedScript parent source) = true

/-- All that a data file puts into sets is in the package. -/
def Absorbed (s : Site) (parent file : Path) (p : Package) : DataFile → Prop
  | .passed => True
  | .missing => Status.missingFile ∈ p.status.toList
  | .failed _ => False
  | .table _ => p.files.contains file = true
  | .markup u => p.files.contains file = true ∧ u.refers.toList ⊆ p.refers.toList ∧
      (∀ r ∈ u.records, p.Holds r) ∧ ∀ n ∈ u.scripts, s.ScriptRead parent p n

/-! ## What reading adds -/

lemma grows_readScript (p : Package) (file : Path) (address : String) :
    p.Grows (s.readScript p file address) := by
  unfold readScript
  split
  · exact .refl p
  · dsimp only
    split
    · exact Package.grows_insert p file
    · exact { Package.grows_insert p file with }

lemma grows_readNamedScript (p : Package) (n : String) :
    p.Grows (s.readNamedScript parent p n) := by
  unfold readNamedScript
  dsimp only
  split
  · exact grows_readScript p _ _
  · exact .refl p

lemma grows_addMarkup (p : Package) (u : Markup.Unit) : p.Grows (s.addMarkup parent p u) := by
  have hrefers : p.Grows { p with refers := p.refers.union u.refers } :=
    { Package.Grows.refl p with refers := fun n hn => OrdSet.mem_union.2 (.inl hn) }
  exact hrefers.trans ((Package.Grows.foldl Package.grows_mergeRecord u.records _).trans
    (Package.Grows.foldl grows_readNamedScript u.scripts _))

/-- Data files only add to a package. -/
lemma grows_readDataFile (h : s.readDataFile parent p f = .ok q) : p.Grows q := by
  rw [readDataFile_eq] at h
  cases hx : s.dataFile p.name f with
  | passed =>
    rw [hx] at h
    obtain rfl := Except.ok.inj h
    exact .refl p
  | missing =>
    rw [hx] at h
    obtain rfl := Except.ok.inj h
    exact { Package.Grows.refl p with status := fun n hn => OrdSet.mem_insert.2 (.inr hn) }
  | failed e =>
    rw [hx] at h
    cases h
  | table rows =>
    rw [hx] at h
    obtain rfl := Except.ok.inj h
    exact { Package.grows_insert p f with }
  | markup u =>
    rw [hx] at h
    obtain rfl := Except.ok.inj h
    exact (Package.grows_insert p f).trans (grows_addMarkup _ u)

lemma scriptRead_readNamedScript (p : Package) (n : String) :
    s.ScriptRead parent (s.readNamedScript parent p n) n := by
  intro hscript
  have hread : s.readNamedScript parent p n = s.readScript p (namedScript parent n) _ :=
    if_pos hscript
  rw [hread, readScript]
  split
  · assumption
  · dsimp only
    split <;> exact PathSet.contains_insert.2 (.inl rfl)

lemma ScriptRead.mono {n : String} (hpq : p.Grows q) (h : s.ScriptRead parent p n) :
    s.ScriptRead parent q n := fun hscript => hpq.files _ (h hscript)

lemma Absorbed.mono (hpq : p.Grows q) (h : s.Absorbed parent g p x) : s.Absorbed parent g q x := by
  cases x with
  | passed => trivial
  | missing => exact hpq.status h
  | failed e => exact h
  | table rows => exact hpq.files g h
  | markup u =>
    obtain ⟨hfile, hrefers, hrecords, hscripts⟩ := h
    exact ⟨hpq.files g hfile, List.Subset.trans hrefers hpq.refers,
      fun r hr => hpq.holds r (hrecords r hr), fun n hn => (hscripts n hn).mono hpq⟩

lemma Absorbed.holds (h : s.Absorbed parent g p x) : ∀ r ∈ x.records, p.Holds r := by
  cases x with
  | markup u => exact h.2.2.1
  | _ => simp [DataFile.records]

lemma absorbed_addMarkup (hfile : p.files.contains g = true) (u : Markup.Unit) :
    s.Absorbed parent g (s.addMarkup parent p u) (.markup u) := by
  have hscripts (p : Package) : p.Grows (u.scripts.foldl (s.readNamedScript parent) p) :=
    Package.Grows.foldl grows_readNamedScript u.scripts p
  refine ⟨(grows_addMarkup p u).files g hfile, ?_, fun r hr => ?_, ?_⟩
  · have hrest := (Package.Grows.foldl Package.grows_mergeRecord u.records
      { p with refers := p.refers.union u.refers }).trans (hscripts _)
    exact List.Subset.trans (fun n hn => OrdSet.mem_union.2 (.inr hn)) hrest.refers
  · exact (hscripts _).holds r (Package.Grows.forall_foldl Package.grows_mergeRecord
      Package.holds_mergeRecord (fun _ _ r hpq => hpq.holds r) u.records _ r hr)
  · exact Package.Grows.forall_foldl grows_readNamedScript scriptRead_readNamedScript
      (fun _ _ _ hpq => ScriptRead.mono hpq) u.scripts _

/-- A data file that has been read is absorbed, under each of its spellings. -/
lemma absorbed_readDataFile (hkey : g.key = f.key) (h : s.readDataFile parent p f = .ok q) :
    s.Absorbed parent g q (s.dataFile p.name f) := by
  have hfile : (p.files.insert f).contains g = true := PathSet.contains_insert.2 (.inl hkey)
  rw [readDataFile_eq] at h
  cases hx : s.dataFile p.name f with
  | passed => trivial
  | missing =>
    rw [hx] at h
    obtain rfl := Except.ok.inj h
    exact OrdSet.mem_insert.2 (.inl rfl)
  | failed e =>
    rw [hx] at h
    cases h
  | table rows =>
    rw [hx] at h
    obtain rfl := Except.ok.inj h
    exact hfile
  | markup u =>
    rw [hx] at h
    obtain rfl := Except.ok.inj h
    exact absorbed_addMarkup hfile u

/-! ## Reading a file again -/

lemma readNamedScript_of_read {n : String} (h : s.ScriptRead parent p n) :
    s.readNamedScript parent p n = p := by
  unfold readNamedScript
  dsimp only
  split
  · rename_i hscript
    exact if_pos (h hscript)
  · rfl

lemma foldl_readNamedScript_of_read {l : List String} (h : ∀ n ∈ l, s.ScriptRead parent p n) :
    l.foldl (s.readNamedScript parent) p = p := by
  induction l with
  | nil => rfl
  | cons n l ih =>
    obtain ⟨hn, hl⟩ := List.forall_mem_cons.1 h
    rw [List.foldl_cons, readNamedScript_of_read hn, ih hl]

/-- Reading an absorbed file only counts once more what is not kept in sets. -/
lemma readDataFile_of_absorbed (h : s.Absorbed parent g p (s.dataFile p.name g)) :
    s.readDataFile parent p g =
      .ok (p.recount (s.dataFile p.name g).rows (s.dataFile p.name g).records) := by
  have hinsert (hfile : p.files.contains g = true) : p.files.insert g = p.files := if_pos hfile
  rw [readDataFile_eq]
  cases hx : s.dataFile p.name g with
  | passed => exact congrArg Except.ok (Package.recount_zero p).symm
  | missing =>
    rw [hx] at h
    have hstatus : p.status.insert Status.missingFile = p.status := OrdSet.insert_of_mem h
    rw [addDataFile, hstatus]
    exact congrArg Except.ok (Package.recount_zero p).symm
  | failed e =>
    rw [hx] at h
    exact h.elim
  | table rows =>
    rw [hx] at h
    rw [addDataFile, hinsert h]
    simp [Package.recount, Record.reweigh_nil, DataFile.rows, DataFile.records]
  | markup u =>
    rw [hx] at h
    obtain ⟨hfile, hrefers, hrecords, hscripts⟩ := h
    rw [addDataFile, hinsert hfile, addMarkup]
    dsimp only
    rw [OrdSet.union_of_subset hrefers, Package.foldl_mergeRecord_eq_recount hrecords,
      foldl_readNamedScript_of_read (p := p.recount 0 u.records) hscripts]
    rfl

/-! ## Reading other files -/

variable {rows : UInt64} {rs : List Record}

lemma readNamedScript_recount (p : Package) (n : String) :
    s.readNamedScript parent (p.recount rows rs) n =
      (s.readNamedScript parent p n).recount rows rs := by
  unfold readNamedScript
  dsimp only
  split
  · have hfiles : (p.recount rows rs).files = p.files := rfl
    rw [readScript, readScript, hfiles]
    split
    · rfl
    · dsimp only
      split <;> rfl
  · rfl

lemma addMarkup_recount (u : Markup.Unit) (h : ∀ r ∈ rs, p.Holds r) :
    s.addMarkup parent (p.recount rows rs) u = (s.addMarkup parent p u).recount rows rs := by
  have hmerge := Package.foldl_mergeRecord_recount rows u.records
    (p := { p with refers := p.refers.union u.refers }) h
  refine (congrArg (fun p => u.scripts.foldl (s.readNamedScript parent) p) hmerge).trans ?_
  exact List.foldl_hom (fun p : Package => p.recount rows rs) readNamedScript_recount

/-- What has been counted once more stays so when another file is read. -/
lemma readDataFile_recount (h : ∀ r ∈ rs, p.Holds r) (f : Path) :
    s.readDataFile parent (p.recount rows rs) f =
      (s.readDataFile parent p f).map fun q => q.recount rows rs := by
  have hname : (p.recount rows rs).name = p.name := rfl
  rw [readDataFile_eq, readDataFile_eq, hname]
  cases s.dataFile p.name f with
  | passed | missing | failed => rfl
  | table n =>
    simp only [addDataFile, Except.map, Package.recount]
    congr 2
    ac_rfl
  | markup u =>
    exact congrArg Except.ok (addMarkup_recount (p := { p with files := p.files.insert f }) u h)

lemma readDataFiles_recount (h : ∀ r ∈ rs, p.Holds r) (l : List Path) :
    s.readDataFiles parent (p.recount rows rs) l =
      (s.readDataFiles parent p l).map fun q => q.recount rows rs := by
  induction l generalizing p with
  | nil => rfl
  | cons f l ih =>
    rw [readDataFiles, List.foldlM_cons, readDataFile_recount h, readDataFiles, List.foldlM_cons]
    cases hf : s.readDataFile parent p f with
    | error e => rfl
    | ok q => exact ih fun r hr => (grows_readDataFile hf).holds r (h r hr)

/-- A file that has been absorbed counts once more wherever it is listed again. -/
lemma readDataFiles_again (l₁ l₂ : List Path) (h : s.Absorbed parent g p (s.dataFile p.name g)) :
    s.readDataFiles parent p (l₁ ++ g :: l₂) = (s.readDataFiles parent p (l₁ ++ l₂)).map fun q =>
      q.recount (s.dataFile p.name g).rows (s.dataFile p.name g).records := by
  induction l₁ generalizing p with
  | nil =>
    rw [List.nil_append, readDataFiles, List.foldlM_cons, readDataFile_of_absorbed h]
    exact readDataFiles_recount h.holds l₂
  | cons f l₁ ih =>
    rw [List.cons_append, readDataFiles, List.foldlM_cons, List.cons_append, readDataFiles,
      List.foldlM_cons]
    cases hf : s.readDataFile parent p f with
    | error e => rfl
    | ok q =>
      have hgrows := grows_readDataFile hf
      rw [← hgrows.name] at h ⊢
      exact ih (h.mono hgrows)

/-! ## Listing a file again -/

lemma dataFile_congr (hkey : g.key = f.key) (hfile : s.files.isFile g = s.files.isFile f)
    (package : String) :
    s.dataFile package g = s.dataFile package f ∨ ∃ e, s.dataFile package f = .failed e := by
  have hextension : g.extension? = f.extension? := by
    simp only [extension?, fileName?, components_of_key hkey]
  unfold dataFile
  dsimp only
  rw [hextension, hfile]
  split
  · exact .inl rfl
  split
  · exact .inl rfl
  rename_i hmissing
  have hf : s.files.isFile f = true := by simpa using hmissing
  rw [FileTree.readText?_congr hkey ((FileTree.trails_of_isFile (hfile.trans hf)).trans
    (FileTree.trails_of_isFile hf).symm)]
  cases s.files.readText? f with
  | none => exact .inr ⟨_, rfl⟩
  | some content =>
    dsimp only
    split
    · exact .inl rfl
    · cases Markup.Unit.ofText? package content with
      | none => exact .inr ⟨_, rfl⟩
      | some u => exact .inl rfl

/-- A data file that is listed twice counts twice. -/
lemma readDataFiles_twice (hkey : g.key = f.key) (hfile : s.files.isFile g = s.files.isFile f)
    (l₁ l₂ l₃ : List Path) :
    s.readDataFiles parent p (l₁ ++ f :: (l₂ ++ g :: l₃)) =
      (s.readDataFiles parent p (l₁ ++ f :: (l₂ ++ l₃))).map fun q =>
        q.recount (s.dataFile p.name g).rows (s.dataFile p.name g).records := by
  induction l₁ generalizing p with
  | nil =>
    rw [List.nil_append, readDataFiles, List.foldlM_cons, List.nil_append, readDataFiles,
      List.foldlM_cons]
    cases hf : s.readDataFile parent p f with
    | error e => rfl
    | ok q =>
      have habsorbed := absorbed_readDataFile hkey hf
      have hgrows := grows_readDataFile hf
      rcases dataFile_congr hkey hfile p.name with hsame | ⟨e, he⟩
      · rw [← hsame, ← hgrows.name] at habsorbed
        rw [← hgrows.name]
        exact readDataFiles_again l₂ l₃ habsorbed
      · rw [he] at habsorbed
        exact habsorbed.elim
  | cons a l₁ ih =>
    rw [List.cons_append, readDataFiles, List.foldlM_cons, List.cons_append, readDataFiles,
      List.foldlM_cons]
    cases ha : s.readDataFile parent p a with
    | error e => rfl
    | ok q =>
      rw [← (grows_readDataFile ha).name]
      exact ih

lemma grows_readDataFiles {l : List Path} (h : s.readDataFiles parent p l = .ok q) : p.Grows q := by
  induction l generalizing p with
  | nil =>
    obtain rfl := Except.ok.inj h
    exact .refl p
  | cons a l ih =>
    rw [readDataFiles, List.foldlM_cons] at h
    cases ha : s.readDataFile parent p a with
    | error e =>
      rw [ha] at h
      cases h
    | ok r =>
      rw [ha] at h
      exact (grows_readDataFile ha).trans (ih h)

/-! ## Another manifest -/

variable {m : NameMap Value}

lemma readNamedScript_withManifest (p : Package) (n : String) :
    s.readNamedScript parent (p.withManifest m) n =
      (s.readNamedScript parent p n).withManifest m := by
  unfold readNamedScript
  dsimp only
  split
  · exact readScript_withManifest p _ _
  · rfl

lemma mergeRecord_withManifest (p : Package) (r : Record) :
    (p.withManifest m).mergeRecord r = (p.mergeRecord r).withManifest m := by
  unfold Package.mergeRecord
  split <;> rfl

lemma readDataFile_withManifest (p : Package) (f : Path) :
    s.readDataFile parent (p.withManifest m) f =
      (s.readDataFile parent p f).map fun q => q.withManifest m := by
  have hname : (p.withManifest m).name = p.name := rfl
  rw [readDataFile_eq, readDataFile_eq, hname]
  cases s.dataFile p.name f with
  | passed | missing | failed | table => rfl
  | markup u =>
    set q : Package := { p with files := p.files.insert f, refers := p.refers.union u.refers }
    have hmerge : u.records.foldl Package.mergeRecord (q.withManifest m) =
        (u.records.foldl Package.mergeRecord q).withManifest m :=
      List.foldl_hom (fun p : Package => p.withManifest m) mergeRecord_withManifest
    refine congrArg Except.ok
      ((congrArg (fun p => u.scripts.foldl (s.readNamedScript parent) p) hmerge).trans ?_)
    exact List.foldl_hom (fun p : Package => p.withManifest m) readNamedScript_withManifest

lemma readDataFiles_withManifest (l : List Path) (p : Package) :
    s.readDataFiles parent (p.withManifest m) l =
      (s.readDataFiles parent p l).map fun q => q.withManifest m :=
  foldlM_map (fun p : Package => p.withManifest m) readDataFile_withManifest l p

/-! ## Packages -/

/-- Count a data file of a package once more, if data files are read. -/
def countAgain (s : Site) (file : Path) (p : Package) : Package :=
  if s.discovery.skipData then p
  else p.recount (s.dataFile p.name file).rows (s.dataFile p.name file).records

lemma countAgain_withDigest (p : Package) (digest : String) :
    s.countAgain f (p.withDigest digest) = (s.countAgain f p).withDigest digest := by
  unfold countAgain
  split <;> rfl

lemma readDataFiles_dataPaths {dir : Path} {l₁ l₂ l₃ : List String} {f g : String}
    (hdata : p.dataFiles = l₁ ++ f :: (l₂ ++ l₃))
    (hagain : (p.withManifest m).dataFiles = l₁ ++ f :: (l₂ ++ g :: l₃))
    (hkey : (dir.join g).key = (dir.join f).key)
    (hfile : s.files.isFile (dir.join g) = s.files.isFile (dir.join f)) :
    s.readDataFiles parent (p.withManifest m) (s.dataPaths dir (p.withManifest m)) =
      (s.readDataFiles parent p (s.dataPaths dir p)).map fun q =>
        (s.countAgain (dir.join g) q).withManifest m := by
  unfold dataPaths
  cases hskip : s.discovery.skipData with
  | true => simp only [if_true, countAgain, hskip, readDataFiles, List.foldlM_nil, Except.map, pure,
      Except.pure]
  | false =>
    simp only [hdata, hagain, List.map_append, List.map_cons, Bool.false_eq_true, if_false]
    rw [readDataFiles_withManifest, readDataFiles_twice hkey hfile]
    cases hq : s.readDataFiles parent p
        (l₁.map dir.join ++ dir.join f :: (l₂.map dir.join ++ l₃.map dir.join)) with
    | error e => simp only [Except.map]
    | ok q =>
      rw [← (grows_readDataFiles hq).name]
      simp only [Except.map, countAgain, hskip, Bool.false_eq_true, if_false]

lemma readData_twice {dir : Path} {manifests : List Path} {l₁ l₂ l₃ : List String} {f g : String}
    (hdata : p.dataFiles = l₁ ++ f :: (l₂ ++ l₃))
    (hagain : (p.withManifest m).dataFiles = l₁ ++ f :: (l₂ ++ g :: l₃))
    (hkey : (dir.join g).key = (dir.join f).key)
    (hfile : s.files.isFile (dir.join g) = s.files.isFile (dir.join f)) :
    (s.readData dir manifests (p.withManifest m)).map (fun q => q.withDigest "") =
      (s.readData dir manifests p).map fun q =>
        ((s.countAgain (dir.join g) q).withManifest m).withDigest "" := by
  unfold readData
  dsimp only
  rw [readDataFiles_dataPaths hdata hagain hkey hfile]
  cases s.readDataFiles (dir.parent?.getD dir) p (s.dataPaths dir p) with
  | error e => simp only [Except.map, Except.mapError, bind, Except.bind]
  | ok q => simp only [Except.map, Except.mapError, bind, Except.bind, pure, Except.pure,
      countAgain_withDigest, withManifest_withDigest, withDigest_withDigest]

lemma manifest_readAside_readCode (h : s.readCode entry p = .ok q) :
    (s.readAside dir q).manifest = p.manifest :=
  (manifest_readAside dir q).trans (manifest_readCode h)

/-- A manifest that asks for the same scripts changes nothing but itself up to the data files. -/
lemma readScripts_readAside_withManifest (dir : Path) (h : s.readCode entry p = .ok q)
    (hassets : (p.withManifest m).assetPatterns = p.assetPatterns) :
    s.readScripts dir (s.readAside dir (q.withManifest m)) =
      (s.readScripts dir (s.readAside dir q)).withManifest m := by
  rw [readAside_withManifest]
  refine readScripts_withManifest dir (Eq.trans hassets ?_)
  rw [Package.assetPatterns, Package.assetPatterns, manifest_readAside_readCode h]

/-- **Data files that are listed twice.** A manifest that names a data file once more than another
one makes the same package, but for its digest and two counts: the rows of the file and the weight
of its records are added once more. -/
theorem readContents_twice (s : Site) (dir : Path) (manifests : List Path) (entry : Path)
    (p : Package) (m : NameMap Value) (l₁ l₂ l₃ : List String) (f g : String)
    (hassets : (p.withManifest m).assetPatterns = p.assetPatterns)
    (hdata : p.dataFiles = l₁ ++ f :: (l₂ ++ l₃))
    (hagain : (p.withManifest m).dataFiles = l₁ ++ f :: (l₂ ++ g :: l₃))
    (hkey : (dir.join g).key = (dir.join f).key)
    (hfile : s.files.isFile (dir.join g) = s.files.isFile (dir.join f)) :
    (s.readContents dir manifests entry (p.withManifest m)).map (fun q => q.withDigest "") =
      (s.readContents dir manifests entry p).map fun q =>
        ((s.countAgain (dir.join g) q).withManifest m).withDigest "" := by
  unfold readContents
  rw [readCode_withManifest]
  cases hq : s.readCode entry p with
  | error e => simp only [Except.map, bind, Except.bind]
  | ok q =>
    have hmanifest : (s.readAside dir q).manifest = p.manifest := manifest_readAside_readCode hq
    have hscripts := readScripts_readAside_withManifest dir hq hassets
    have hlist : (s.readScripts dir (s.readAside dir q)).dataFiles = p.dataFiles := by
      rw [Package.dataFiles, Package.dataFiles, manifest_readScripts, hmanifest]
    simp only [Except.map, bind, Except.bind, hscripts]
    exact readData_twice (hlist.trans hdata) hagain hkey hfile

/-! ### A table that is listed twice -/

/-- A directory with a table of one row, of which only data files are read. -/
def tableSite : Site where
  files := ({} : FileTree).addFile ["sale", "d.csv"] "id\n1\n".toUTF8
  settings := { discovery :=
    { skipPython := true, skipReadme := true, skipLanguage := true, skipAssets := true } }

/-- A package whose manifest lists some data files. -/
def listing (names : List String) : Package where
  path := ⟨"sale"⟩
  name := "sale"
  manifest := .ofList [("data", .list (names.map .text))]

lemma dataFile_tableSite (package : String) :
    tableSite.dataFile package ((Path.mk "sale").join "d.csv") = .table 1 := by
  have hplace :
      tableSite.files.place? ((Path.mk "sale").join "d.csv") = some ["sale", "d.csv"] := by
    rw [FileTree.place?_join _ (by decide) (by decide), FileTree.place?_of_isName rfl (by decide)]
    decide +kernel
  have hbytes := FileTree.readBytes?_eq_some_iff.2 ⟨_, hplace, by decide +kernel, rfl⟩
  have hfile := FileTree.isFile_iff.2 ⟨_, hbytes⟩
  have hextension : ((Path.mk "sale").join "d.csv").extension? = some "csv" := by
    rw [extension?, fileName?, components_join_name _ (by decide), List.getLast?_concat]
    decide
  have hrows : tableRows "id\n1\n" = 1 := by cbv
  simp [dataFile, hextension, hfile, FileTree.readText?_of_toUTF8 hbytes, hrows]

theorem readContents_twice_table :
    (tableSite.readContents ⟨"sale"⟩ [] ⟨"sale/__init__.py"⟩ (listing ["d.csv", "d.csv"])).map
        (fun q => q.withDigest "") =
      (tableSite.readContents ⟨"sale"⟩ [] ⟨"sale/__init__.py"⟩ (listing ["d.csv"])).map fun q =>
        ((tableSite.countAgain ((Path.mk "sale").join "d.csv") q).withManifest
          (listing ["d.csv", "d.csv"]).manifest).withDigest "" :=
  readContents_twice tableSite ⟨"sale"⟩ [] ⟨"sale/__init__.py"⟩ (listing ["d.csv"])
    (listing ["d.csv", "d.csv"]).manifest [] [] [] "d.csv" "d.csv" rfl rfl rfl rfl rfl

lemma dataFiles_listing (names : List String) : (listing names).dataFiles = names := by
  have hdata : (listing names).manifest.get? "data" = some (.list (names.map .text)) :=
    OrdMap.get?_insert_self .empty "data" _
  rw [Package.dataFiles, hdata]
  simp [Package.textsIn, List.filterMap_map, Function.comp_def, Value.text?]

lemma dataCount_readDataFiles_tableSite (n : Nat) (p : Package) :
    (tableSite.readDataFiles parent p (List.replicate n ((Path.mk "sale").join "d.csv"))).map
      Package.dataCount = .ok (p.dataCount + UInt64.ofNat n) := by
  induction n generalizing p with
  | zero => simp [readDataFiles, Except.map, pure, Except.pure]
  | succ n ih =>
    rw [List.replicate_succ, readDataFiles, List.foldlM_cons, readDataFile_eq, dataFile_tableSite]
    refine (ih _).trans ?_
    rw [UInt64.ofNat_add, UInt64.add_comm (UInt64.ofNat n), UInt64.add_assoc]
    rfl

lemma dataCount_readContents_tableSite (n : Nat) :
    (tableSite.readContents ⟨"sale"⟩ [] ⟨"sale/__init__.py"⟩
      (listing (List.replicate n "d.csv"))).map Package.dataCount = .ok (UInt64.ofNat n) := by
  have hpaths : tableSite.dataPaths ⟨"sale"⟩ (listing (List.replicate n "d.csv")) =
      List.replicate n ((Path.mk "sale").join "d.csv") := by
    rw [dataPaths, dataFiles_listing, List.map_replicate]
    rfl
  have hcount : (tableSite.readDataFiles ((Path.mk "sale").parent?.getD ⟨"sale"⟩)
      (listing (List.replicate n "d.csv")) _).map _ = _ :=
    dataCount_readDataFiles_tableSite n (listing (List.replicate n "d.csv"))
  change (tableSite.readData ⟨"sale"⟩ [] (listing (List.replicate n "d.csv"))).map _ = _
  unfold readData
  dsimp only
  rw [hpaths]
  cases hq : tableSite.readDataFiles ((Path.mk "sale").parent?.getD ⟨"sale"⟩)
      (listing (List.replicate n "d.csv")) (List.replicate n ((Path.mk "sale").join "d.csv")) with
  | error e =>
    rw [hq] at hcount
    cases hcount
  | ok q =>
    rw [hq] at hcount
    have hq : q.dataCount = UInt64.ofNat n := (Except.ok.inj hcount).trans (UInt64.zero_add _)
    simp only [Except.map, Except.mapError, bind, Except.bind, pure, Except.pure,
      Package.withDigest, hq]

/-- It is not so that a data file counts once however often it is listed. -/
theorem not_readContents_once : ¬ ∀ (s : Site) (dir : Path) (manifests : List Path) (entry : Path)
    (p : Package) (m : NameMap Value) (l₁ l₂ l₃ : List String) (f g : String),
    (p.withManifest m).assetPatterns = p.assetPatterns →
    p.dataFiles = l₁ ++ f :: (l₂ ++ l₃) →
    (p.withManifest m).dataFiles = l₁ ++ f :: (l₂ ++ g :: l₃) →
    (dir.join g).key = (dir.join f).key →
    s.files.isFile (dir.join g) = s.files.isFile (dir.join f) →
    (s.readContents dir manifests entry (p.withManifest m)).map (fun q => q.withDigest "") =
      (s.readContents dir manifests entry p).map fun q => (q.withManifest m).withDigest "" := by
  intro h
  have hsame := h tableSite ⟨"sale"⟩ [] ⟨"sale/__init__.py"⟩ (listing ["d.csv"])
    (listing ["d.csv", "d.csv"]).manifest [] [] [] "d.csv" "d.csv" rfl rfl rfl rfl rfl
  have hcount := congrArg (Except.map Package.dataCount) hsame
  have hdrop (x : Except AssemblyError Package) :
      (x.map fun q => q.withDigest "").map Package.dataCount = x.map Package.dataCount := by
    cases x <;> rfl
  have hdrop' (x : Except AssemblyError Package) (m : NameMap Value) :
      (x.map fun q => (q.withManifest m).withDigest "").map Package.dataCount =
        x.map Package.dataCount := by
    cases x <;> rfl
  have honce := dataCount_readContents_tableSite 1
  have htwice := dataCount_readContents_tableSite 2
  rw [hdrop, hdrop'] at hcount
  exact absurd (Except.ok.inj (htwice.symm.trans (hcount.trans honce))) (by decide)

end Site

end AddonAtlas
