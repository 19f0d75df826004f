import AddonAtlas.Proofs.Digest.FileSet
import AddonAtlas.Proofs.Discovery.DataFiles
import AddonAtlas.Proofs.Text.Lines
import Mathlib.Algebra.Order.BigOperators.Group.List

/-!
The rows of a table.

The rows of a table are counted as lines that are not blank. That is the number of its records if
each of them stands on one line. A quoted field may hold line breaks, and then every further line
that is not blank counts as a row.
-/

namespace AddonAtlas

open Text

/-! ## Tables -/

namespace Table

/-- A field of a table. A quoted one may hold anything. -/
inductive Field
  | plain (text : List Char) (h : ∀ c ∈ text, c ∉ ['"', ',', '\n'])
  | quoted (text : List Char)

/-- A quote inside of quotes is written twice. -/
def doubled (text : List Char) : List Char :=
  text.flatMap fun c => if c = '"' then ['"', '"'] else [c]

def Field.written : Field → List Char
  | .plain text _ => text
  | .quoted text => '"' :: doubled text ++ ['"']

/-- The fields of a record, as they are written with commas between them. -/
def writtenFields (fields : List Field) : List Char := [','].intercalate (fields.map Field.written)

/-- A record that is not blank. -/
structure Row where
  fields : List Field
  visible : isVisible (writtenFields fields) = true

def Row.written (r : Row) : List Char := writtenFields r.fields

/-- Whether a field goes on behind a line break. -/
def Field.IsBroken : Field → Prop
  | .plain _ _ => False
  | .quoted text => '\n' ∈ text

/-- The lines of a record that are not blank, but for one. -/
def Row.continued (r : Row) : Nat := visibleLines r.written - 1

end Table

/-- A table: a heading, rows behind line ends, and perhaps a last line end. -/
structure Table where
  heading : Table.Row
  rows : List (LineEnd × Table.Row)
  last : Option LineEnd

namespace Table

def records (t : Table) : List Row := t.heading :: t.rows.map Prod.snd

/-- What stands behind the heading. -/
def writtenRows (last : Option LineEnd) : List (LineEnd × Row) → List Char
  | [] => (last.map LineEnd.text).getD []
  | (e, r) :: rows => e.text ++ (r.written ++ writtenRows last rows)

def written (t : Table) : List Char := t.heading.written ++ writtenRows t.last t.rows

/-- The lines that are counted besides the records. -/
def continued (t : Table) : Nat := (t.records.map Row.continued).sum

variable {t : Table} {r : Row} {fields : List Field} {f : Field} {text w rest : List Char}
  {seen : Bool}

lemma visibleLines_row (r : Row) : visibleLines r.written = r.continued + 1 :=
  (Nat.sub_add_cancel (visibleLines_pos r.visible)).symm

lemma visibleLines_rows (last : Option LineEnd) (rows : List (LineEnd × Row)) (w : List Char) :
    visibleLines (w ++ writtenRows last rows) =
      visibleLines w + (rows.map fun e => e.2.continued + 1).sum := by
  induction rows generalizing w with
  | nil =>
    cases last with
    | none => simp [writtenRows]
    | some e =>
      have hnone : visibleLines [] = 0 := rfl
      simpa [writtenRows, hnone] using visibleLines_append w e []
  | cons e rows ih =>
    rw [writtenRows, visibleLines_append, ih, visibleLines_row, List.map_cons, List.sum_cons]

/-- Rows are counted as often as they have lines that are not blank. -/
lemma tableRows_written (t : Table) (text : String) (h : text.toList = t.written) :
    tableRows text = t.rows.length + t.continued := by
  have hcount : visibleLines t.written = t.rows.length + t.continued + 1 := by
    rw [written, visibleLines_rows, visibleLines_row, continued, records, List.map_cons,
      List.sum_cons, List.sum_map_add]
    simp [List.map_map, Function.comp_def]
    omega
  rw [tableRows, h]
  exact Nat.sub_eq_of_eq_add hcount

/-! ## Records that go on behind line breaks -/

lemma mem_doubled {c : Char} (h : c ∈ doubled text) : c = '"' ∨ c ∈ text := by
  obtain ⟨d, hd, hc⟩ := List.mem_flatMap.1 h
  split at hc
  · exact Or.inl (by simpa using hc)
  · exact Or.inr (List.mem_singleton.1 hc ▸ hd)

lemma isBroken_of_mem (h : '\n' ∈ f.written) : f.IsBroken := by
  cases f with
  | plain text hplain =>
    have hfeed : '\n' ∉ ['"', ',', '\n'] := hplain _ h
    exact absurd (by simp) hfeed
  | quoted text =>
    have hdoubled : '\n' ∈ doubled text := by simpa [Field.written] using h
    exact (mem_doubled hdoubled).resolve_left (by decide)

/-- A broken field has quotes on both sides of a line break. -/
lemma exists_of_isBroken (h : f.IsBroken) : ∃ before after,
    f.written = before ++ '\n' :: after ∧ '"' ∈ before ∧ '"' ∈ after := by
  cases f with
  | plain => exact h.elim
  | quoted text =>
    obtain ⟨before, after, rfl⟩ := List.append_of_mem h
    refine ⟨'"' :: doubled before, doubled after ++ ['"'], ?_, by simp, by simp⟩
    simp [Field.written, doubled]

lemma exists_of_mem_intercalate {α : Type u} {l : List α} (sep : List α) {ls : List (List α)}
    (h : l ∈ ls) :
    ∃ a b, sep.intercalate ls = a ++ l ++ b := by
  induction ls with
  | nil => cases h
  | cons m ls ih =>
    cases ls with
    | nil =>
      obtain rfl := List.mem_singleton.1 h
      exact ⟨[], [], by simp⟩
    | cons k ls =>
      rw [List.intercalate_cons_cons]
      rcases List.mem_cons.1 h with rfl | h
      · exact ⟨[], sep ++ sep.intercalate (k :: ls), by simp⟩
      · obtain ⟨a, b, hab⟩ := ih h
        exact ⟨m ++ sep ++ a, b, by simp [hab]⟩

lemma isVisible_of_quote (h : '"' ∈ w) : isVisible w = true :=
  List.any_eq_true.2 ⟨'"', h, by decide⟩

/-- A record is counted once just if none of its fields goes on behind a line break. -/
lemma continued_eq_zero_iff : r.continued = 0 ↔ ∀ f ∈ r.fields, ¬ f.IsBroken := by
  have hrow := visibleLines_row r
  constructor
  · intro hzero f hf hbroken
    obtain ⟨a, b, hab⟩ := exists_of_mem_intercalate [',']
      (List.mem_map_of_mem (f := Field.written) hf)
    obtain ⟨before, after, hwritten, hbefore, hafter⟩ := exists_of_isBroken hbroken
    have hsplit : r.written = (a ++ before) ++ (LineEnd.plain.text ++ (after ++ b)) := by
      rw [Row.written, writtenFields, hab, hwritten]
      simp [LineEnd.text]
    have hfirst : 0 < visibleLines (a ++ before) :=
      visibleLines_pos (isVisible_of_quote (List.mem_append_right _ hbefore))
    have hsecond : 0 < visibleLines (after ++ b) :=
      visibleLines_pos (isVisible_of_quote (List.mem_append_left _ hafter))
    rw [hsplit, visibleLines_append] at hrow
    omega
  · intro hwhole
    have hline : '\n' ∉ r.written := by
      intro hfeed
      rcases Path.mem_of_mem_intercalate hfeed with hcomma | ⟨l, hl, hfeed⟩
      · exact absurd hcomma (by decide)
      · obtain ⟨f, hf, rfl⟩ := List.mem_map.1 hl
        exact hwhole f hf (isBroken_of_mem hfeed)
    have hone := visibleLines_le_one hline
    omega

lemma continued_table_eq_zero_iff :
    t.continued = 0 ↔ ∀ r ∈ t.records, ∀ f ∈ r.fields, ¬ f.IsBroken := by
  rw [continued, List.sum_eq_zero_iff, List.forall_mem_map]
  exact forall₂_congr fun r _ => continued_eq_zero_iff

/-! ## Records of a text -/

/-- The records of a text that are not blank. Line breaks inside of quotes close no record. -/
def countRecords : (quoted seen : Bool) → List Char → Nat
  | _, seen, [] => seen.toNat
  | quoted, seen, c :: rest =>
    if c = '"' then countRecords (!quoted) true rest
    else if c = '\n' && !quoted then seen.toNat + countRecords false false rest
    else countRecords quoted (seen || !isBlank c) rest

lemma countRecords_plain (h : ∀ c ∈ text, c ∉ ['"', ',', '\n']) (seen : Bool)
    (rest : List Char) :
    countRecords false seen (text ++ rest) = countRecords false (seen || isVisible text) rest := by
  induction text generalizing seen with
  | nil => simp [isVisible]
  | cons c text ih =>
    obtain ⟨hc, htext⟩ := List.forall_mem_cons.1 h
    simp only [List.mem_cons, not_or] at hc
    rw [List.cons_append, countRecords, if_neg hc.1, if_neg (by simp [hc.2.2.1]), ih htext,
      isVisible, isVisible, List.any_cons, Bool.or_assoc]

/-- Inside of quotes a doubled quote closes them and opens them again. -/
lemma countRecords_doubled (text rest : List Char) :
    countRecords true true (doubled text ++ rest) = countRecords true true rest := by
  induction text with
  | nil => rfl
  | cons c text ih =>
    rw [doubled, List.flatMap_cons, ← doubled, List.append_assoc]
    by_cases hc : c = '"'
    · simp [hc, countRecords, ih]
    · simp [hc, countRecords, ih]

lemma countRecords_field (f : Field) (seen : Bool) (rest : List Char) :
    countRecords false seen (f.written ++ rest) =
      countRecords false (seen || isVisible f.written) rest := by
  cases f with
  | plain text h => exact countRecords_plain h seen rest
  | quoted text =>
    have hvisible : isVisible (Field.quoted text).written = true :=
      isVisible_of_quote (by simp [Field.written])
    rw [hvisible, Bool.or_true, Field.written, List.append_assoc, List.cons_append, countRecords,
      if_pos rfl, Bool.not_false, countRecords_doubled, List.singleton_append, countRecords,
      if_pos rfl, Bool.not_true]

lemma countRecords_fields (fields : List Field) (seen : Bool) (rest : List Char) :
    countRecords false seen (writtenFields fields ++ rest) =
      countRecords false (seen || isVisible (writtenFields fields)) rest := by
  induction fields generalizing seen with
  | nil => simp [writtenFields, isVisible]
  | cons f fields ih =>
    cases fields with
    | nil => simpa [writtenFields] using countRecords_field f seen rest
    | cons g fields =>
      have hsplit : writtenFields (f :: g :: fields) =
          f.written ++ ',' :: writtenFields (g :: fields) := by
        simp [writtenFields, List.intercalate_cons_cons]
      rw [hsplit, List.append_assoc, List.cons_append, countRecords_field, countRecords,
        if_neg (by decide), if_neg (by simp), ih, isVisible, isVisible, isVisible, List.any_append,
        List.any_cons]
      simp only [Bool.or_assoc]

lemma countRecords_lineEnd (seen : Bool) (e : LineEnd) (rest : List Char) :
    countRecords false seen (e.text ++ rest) = seen.toNat + countRecords false false rest := by
  have hreturn : isBlank '\r' = true := by decide
  cases e <;> simp [LineEnd.text, countRecords, hreturn]

lemma countRecords_rows (last : Option LineEnd) (rows : List (LineEnd × Row)) :
    countRecords false true (writtenRows last rows) = rows.length + 1 := by
  induction rows with
  | nil =>
    cases last with
    | none => rfl
    | some e => simpa [writtenRows, countRecords] using countRecords_lineEnd true e []
  | cons e rows ih =>
    rw [writtenRows, countRecords_lineEnd, Row.written, countRecords_fields, e.2.visible,
      Bool.or_true, ih, List.length_cons]
    exact Nat.add_comm _ _

/-- A table has the records that it is written from. -/
lemma countRecords_written (t : Table) :
    countRecords false false t.written = t.rows.length + 1 := by
  rw [written, Row.written, countRecords_fields, t.heading.visible, Bool.or_true, countRecords_rows]

end Table

namespace Site

open Table

variable {s : Site} {file : Path} {t : Table} {text : String}

lemma readDataFile_of_written (parent : Path) (p : Package) (hfile : file.extension? = some "csv")
    (htext : s.files.readText? file = some text) (ht : text.toList = t.written) :
    s.readDataFile parent p file = .ok { p with
      files := p.files.insert file
      dataCount := p.dataCount + UInt64.ofNat (t.rows.length + t.continued) } := by
  have hexists := FileTree.isFile_of_readText? htext
  rw [readDataFile_eq]
  simp [dataFile, hfile, hexists, htext, tableRows_written t text ht, addDataFile]

/-- **Rows of tables.** A table adds its rows to the rows of a package, and every further line of a
record that is not blank: it adds just its rows if no quoted field goes on behind a line break. -/
theorem readDataFile_table (s : Site) (parent file : Path) (p : Package) (t : Table) (text : String)
    (hfile : file.extension? = some "csv") (htext : s.files.readText? file = some text)
    (ht : text.toList = t.written) :
    s.readDataFile parent p file = .ok { p with
      files := p.files.insert file
      dataCount := p.dataCount + UInt64.ofNat (t.rows.length + t.continued) } ∧
    (t.continued = 0 ↔ ∀ r ∈ t.records, ∀ f ∈ r.fields, ¬ f.IsBroken) ∧
    countRecords false false text.toList = t.rows.length + 1 := by
  refine ⟨readDataFile_of_written parent p hfile htext ht, continued_table_eq_zero_iff, ?_⟩
  rw [ht, countRecords_written]

/-! ### A table with a note of two lines -/

/-- A table of one row, in which a note goes on behind a line break. -/
def noteTable : Table where
  heading := ⟨[.plain ['i', 'd'] (by simp), .plain ['n', 'o', 't', 'e'] (by simp)], by decide⟩
  rows := [(.plain, ⟨[.plain ['1'] (by simp), .quoted ['a', '\n', 'b']], by decide⟩)]
  last := some .plain

/-- A directory that holds this table. -/
def noteSite : Site where
  files := ({} : FileTree).addFile ["sale", "d.csv"]
    "id,note\n1,\"a\nb\"\n".toUTF8
  settings := {}

lemma readText?_noteSite : noteSite.files.readText? ((Path.mk "sale").join "d.csv") =
    some "id,note\n1,\"a\nb\"\n" := by
  have hplace : noteSite.files.place? ((Path.mk "sale").join "d.csv") = some ["sale", "d.csv"] := by
    rw [FileTree.place?_join _ (by decide) (by decide), FileTree.place?_of_isName rfl (by decide)]
    decide +kernel
  exact FileTree.readText?_of_toUTF8
    (FileTree.readBytes?_eq_some_iff.2 ⟨_, hplace, by decide +kernel, rfl⟩)

lemma extension?_noteSite : ((Path.mk "sale").join "d.csv").extension? = some "csv" := by
  rw [Path.extension?, Path.fileName?, Path.components_join_name _ (by decide),
    List.getLast?_concat]
  decide

lemma toList_noteTable : "id,note\n1,\"a\nb\"\n".toList = noteTable.written := by decide

theorem readDataFile_table_note : ∃ q,
    noteSite.readDataFile ⟨""⟩ (Package.ofPath ⟨"sale"⟩) ((Path.mk "sale").join "d.csv") = .ok q ∧
      q.dataCount = 2 :=
  ⟨_, (readDataFile_table noteSite ⟨""⟩ _ (Package.ofPath ⟨"sale"⟩) noteTable _ extension?_noteSite
    readText?_noteSite toList_noteTable).1, by decide⟩

/-- It is not so that a table adds as many rows as it has records behind the heading. -/
theorem not_dataCount_eq_length : ¬ ∀ (s : Site) (parent file : Path) (p q : Package) (t : Table)
    (text : String), file.extension? = some "csv" → s.files.readText? file = some text →
    text.toList = t.written → s.readDataFile parent p file = .ok q →
    q.dataCount = p.dataCount + UInt64.ofNat t.rows.length := by
  intro h
  have hcontinued : noteTable.continued = 1 := by decide
  have hread := readDataFile_of_written ⟨""⟩ (Package.ofPath ⟨"sale"⟩) extension?_noteSite
    readText?_noteSite toList_noteTable
  have hcount := h noteSite ⟨""⟩ _ (Package.ofPath ⟨"sale"⟩) _ noteTable _ extension?_noteSite
    readText?_noteSite toList_noteTable hread
  rw [hcontinued] at hcount
  exact absurd hcount (by decide)

end Site

end AddonAtlas
