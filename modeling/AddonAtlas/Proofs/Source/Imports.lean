import AddonAtlas.Proofs.Source.Recovery
import AddonAtlas.Proofs.Source.Statements

/-!
What the import statements of a module leave behind.

An import statement names modules, or names of one module, or asks for all names of a module, or
selects features of the language. The dotted paths of a module are made of the names, one statement
after another: one that asks for all names has none and leaves nothing behind, and features are
left out.
-/

namespace AddonAtlas.Source

open Reading

variable {t root : Tree} {n : String} {ts ts' : List Tree} {names names' : List String}

/-! ## Forms of statements -/

/-- What an import statement asks for. -/
inductive ImportForm
  /-- Modules, each perhaps under another name. -/
  | modules (names : List String)
  /-- Names of a module, each perhaps under another name. -/
  | members (module : String) (names : List String)
  /-- All names of a module. -/
  | everything (module : String)
  /-- Features of the language. -/
  | features (names : List String)
  deriving DecidableEq, Repr, Inhabited

namespace ImportForm

/-- The dotted paths that a statement leaves behind. -/
def paths : ImportForm → List String
  | modules names => names
  | members m names => names.map fun n => m ++ "." ++ n
  | everything _ | features _ => []

/-- Each module that a statement names is found among some paths: as it stands, or in front of a
dot where the statement asks for names of it. -/
def FoundIn (paths : List String) : ImportForm → Prop
  | modules names => ∀ n ∈ names, n ∈ paths
  | members m _ | everything m => ∃ path ∈ paths, ∃ n, path = m ++ "." ++ n
  | features _ => ∃ path ∈ paths, ∃ n, path = "__future__." ++ n

/-- A statement names what it imports, and that is not a part of the language. -/
def Lists : ImportForm → Prop
  | modules _ | members _ _ => True
  | everything _ | features _ => False

end ImportForm

/-- A part of an import statement is a dotted name, perhaps with another name for it. -/
inductive NamePart : Tree → String → Prop
  | plain {t : Tree} : t.kind = .dottedName → NamePart t t.text
  | aliased {t n : Tree} : t.kind = .aliasedImport → t.child? .name = some n →
      n.kind = .dottedName →
    NamePart t n.text

/-- The parts of a statement that name what is imported, in their order. -/
def Names (ts : List Tree) (names : List String) : Prop :=
  List.Forall₂ NamePart (ts.filter fun t => t.role == some .name) names

/-- An import statement of a form. -/
inductive Imports : Tree → ImportForm → Prop
  | modules {t : Tree} {names : List String} : t.kind = .importStatement → names ≠ [] →
    Names t.children names → Imports t (.modules names)
  | members {t m : Tree} {names : List String} : t.kind = .importFromStatement →
    t.child? .moduleName = some m → names ≠ [] → Names t.children names →
      Imports t (.members m.text names)
  | everything {t m w : Tree} : t.kind = .importFromStatement → t.child? .moduleName = some m →
    w ∈ t.children → w.kind = .wildcardImport → Names t.children [] → Imports t (.everything m.text)
  | features {t : Tree} {names : List String} : t.kind = .futureImportStatement → names ≠ [] →
    Names t.children names → Imports t (.features names)

/-- The import statements that stand in a module itself, in their order. -/
def importStatements (root : Tree) : List Tree := root.namedChildren.filter fun t => isImport t.kind

/-! ## The paths of a statement -/

lemma importedName_of_namePart (h : NamePart t n) : importedName t = n := by
  cases h with
  | plain hkind => simp [importedName, hkind]
  | aliased hkind hname => simp [importedName, hkind, hname]

lemma map_importedName (h : Names ts names) :
    (ts.filter fun t => t.role == some .name).map importedName = names := by
  rw [Names] at h
  generalize ts.filter (fun t => t.role == some .name) = parts at h
  induction h with
  | nil => rfl
  | cons ht _ ih => rw [List.map_cons, importedName_of_namePart ht, ih]

/-- A statement leaves the paths of its form behind. -/
lemma Imports.paths_eq {form : ImportForm} (h : Imports t form) :
    ([t].filter fun t =>
      t.kind == .importStatement || t.kind == .importFromStatement).flatMap importPaths =
      form.paths := by
  cases h with
  | modules hkind _ hnames => simp [hkind, importPaths, map_importedName hnames, ImportForm.paths]
  | members hkind hmodule _ hnames | everything hkind hmodule _ _ hnames =>
    simp [hkind, importPaths, hmodule, map_importedName hnames, ImportForm.paths]
  | features hkind => simp [hkind, ImportForm.paths]

lemma flatMap_importPaths {forms : List ImportForm} (h : List.Forall₂ Imports ts forms) :
    (ts.filter fun t =>
      t.kind == .importStatement || t.kind == .importFromStatement).flatMap importPaths =
      forms.flatMap ImportForm.paths := by
  induction h with
  | nil => rfl
  | @cons t form ts forms ht _ ih =>
    rw [← List.singleton_append, List.filter_append, List.flatMap_append, ht.paths_eq, ih]
    rfl

/-- A statement finds its modules among its own paths just if it names what it imports. -/
lemma Imports.foundIn_paths_iff {form : ImportForm} (h : Imports t form) :
    form.FoundIn form.paths ↔ form.Lists := by
  cases h with
  | modules => exact iff_of_true (fun n hn => hn) trivial
  | members _ _ hne =>
    obtain ⟨n, hn⟩ := List.exists_mem_of_ne_nil _ hne
    exact iff_of_true ⟨_, List.mem_map_of_mem hn, n, rfl⟩ trivial
  | everything | features =>
    refine iff_of_false ?_ id
    rintro ⟨path, hpath, -⟩
    cases hpath

/-- Each statement names a module. -/
lemma Imports.not_foundIn_nil {form : ImportForm} (h : Imports t form) : ¬ form.FoundIn [] := by
  cases h with
  | modules _ hne =>
    intro hfound
    obtain ⟨n, hn⟩ := List.exists_mem_of_ne_nil _ hne
    cases hfound n hn
  | members | everything | features =>
    rintro ⟨path, hpath, -⟩
    cases hpath

lemma exists_imports_of_mem {forms : List ImportForm} {form : ImportForm}
    (h : List.Forall₂ Imports ts forms) (hform : form ∈ forms) : ∃ t, Imports t form := by
  induction h with
  | nil => cases hform
  | cons ht _ ih =>
    rcases List.mem_cons.1 hform with rfl | hform
    · exact ⟨_, ht⟩
    · exact ih hform

/-- The paths of a module are those of its statements, one after another. -/
lemma imports_of_forall₂ {forms : List ImportForm}
    (h : List.Forall₂ Imports (importStatements root) forms) :
    imports root = forms.flatMap ImportForm.paths := by
  rw [← flatMap_importPaths h, imports, importStatements, List.filter_filter]
  refine congrArg (List.flatMap importPaths) (List.filter_congr fun t _ => ?_)
  cases t.kind <;> rfl

/-! ## Statements that are read -/

lemma Names.append (h : Names ts names) (h' : Names ts' names') :
    Names (ts ++ ts') (names ++ names') := by
  rw [Names, List.filter_append]
  exact List.rel_append h h'

lemma names_of_role_ne (h : ∀ t ∈ ts, t.role ≠ some .name) : Names ts [] := by
  rw [Names, List.filter_eq_nil_iff.2 fun t ht => by simpa using h t ht]
  exact .nil

lemma names_comments (h : AreComments ts) : Names ts [] :=
  names_of_role_ne fun t ht => by simp [(h t ht).2]

lemma NamePart.withRole {r : Role} (h : NamePart t n) : NamePart (t.withRole r) n := by
  cases h with
  | plain hkind =>
    rw [← Tree.withRole_text (r := r)]
    exact .plain (Tree.withRole_kind.trans hkind)
  | aliased hkind hname hkind' =>
    refine .aliased (Tree.withRole_kind.trans hkind) ?_ hkind'
    rw [Tree.child?, Tree.withRole_children]
    exact hname

lemma names_of_part (h : IsPart (fun t => ∃ u, t = u.withRole .name ∧ ∃ n, NamePart u n) ts) :
    ∃ n, Names ts [n] := by
  obtain ⟨cs, _, rfl, hcs, u, rfl, n, hn⟩ := h
  refine ⟨n, (names_comments hcs).append ?_⟩
  rw [Names, List.filter_cons_of_pos (by simp)]
  exact .cons hn.withRole .nil

/-- The part that plays a role is found behind comments. -/
lemma find?_role {r : Role} (h : AreComments ts) :
    (ts ++ t.withRole r :: ts').find? (fun c => c.role == some r) = some (t.withRole r) := by
  rw [List.find?_append, List.find?_eq_none.2 fun c hc => by simp [(h c hc).2]]
  simp

namespace Grammar

variable {e e' : Expected} {f : Follow}

lemma kind_dottedName : Yields (dottedName e e') fun t => t.kind = .dottedName :=
  fun c => by simp [dottedName]

lemma yields_importedName : Yields (importedName e) fun t => ∃ n, NamePart t n := by
  refine .after fun _ => .bind kind_dottedName fun n hn => .after fun _ =>
    .ite (fun _ => ?_) fun _ => ?_
  · refine .after fun a => .after fun _ => .after fun m => .node fun _ _ _ => ⟨n.text, ?_⟩
    rw [← Tree.withRole_text (r := .name)]
    exact .aliased rfl (find?_role areComments_nil) (Tree.withRole_kind.trans hn)
  · exact .pure ⟨_, .plain hn⟩

/-- Parts that name at least one thing. -/
def AreNames (ts : List Tree) : Prop := ∃ names, names ≠ [] ∧ Names ts names

lemma yields_importedNames : Yields (importedNames f) AreNames := by
  have hone : Yields (partAs .name (importedName f.expected)) fun ts => ∃ n, Names ts [n] :=
    yields_importedName.partAs.mono fun _ => names_of_part
  refine .after fun _ => .bind hone fun first ⟨n, hn⟩ =>
    .loop ⟨[n], by simp, hn⟩ fun cs ⟨names, hne, hnames⟩ => ?_
  refine .after fun _ => .ite (fun _ => .bind yields_sign fun comma hcomma => .after fun t => ?_)
    fun _ => .pure ⟨names, hne, hnames⟩
  have hlisted := hnames.append (names_comments hcomma)
  rw [List.append_nil] at hlisted
  split
  · exact .bind hone fun ts ⟨n, hn⟩ => .pure ⟨names ++ [n], by simp, hlisted.append hn⟩
  · exact .pure ⟨names, hne, hlisted⟩

lemma yields_bracketedNames : Yields bracketedNames AreNames := by
  refine .after fun _ => .ite (fun _ => ?_) fun _ => yields_importedNames
  refine .bind yields_sign fun a ha => .bind yields_importedNames fun ns ⟨names, hne, hnames⟩ =>
    .bind yields_sign fun z hz => .pure ⟨names, hne, ?_⟩
  simpa using ((names_comments ha).append hnames).append (names_comments hz)

lemma imports_importStatement : Yields importStatement fun t => ∃ form, Imports t form := by
  refine .after fun _ => .bind yields_keyword fun a ha => .bind yields_importedNames
    fun ns ⟨names, hne, hnames⟩ => .node fun _ _ _ => ⟨.modules names, .modules rfl hne ?_⟩
  exact (names_comments ha).append hnames

/-- Comments and the module of a statement stand in front of the names. -/
lemma module_of_part {a m : List Tree} (ha : AreComments a)
    (hm : IsPart (fun t => ∃ u : Tree, t = u.withRole .moduleName ∧ True) m) :
    Names (a ++ m) [] ∧
      ∃ u, ∀ ts, (a ++ m ++ ts).find? (fun t => t.role == some .moduleName) = some u := by
  obtain ⟨cs, _, rfl, hcs, u, rfl, -⟩ := hm
  have hfront : AreComments (a ++ cs) := List.forall_mem_append.2 ⟨ha, hcs⟩
  rw [← List.append_assoc]
  refine ⟨(names_comments hfront).append (names_of_role_ne ?_), u.withRole .moduleName,
    fun ts => ?_⟩
  · simp
  · rw [List.append_assoc]
    exact find?_role hfront

lemma imports_importFrom :
    Yields importFrom fun t => ∃ form, Imports t form := by
  refine .after fun _ => .bind yields_keyword fun a ha => .after fun t =>
    .ite (fun _ => ?_) fun _ => ?_
  · -- features of the language: the names stand behind two keywords
    refine .bind yields_keyword fun b hb => .bind yields_keyword fun c hc =>
      .bind yields_bracketedNames fun ns hns => ?_
    obtain ⟨names, hne, hnames⟩ := hns
    exact .node fun _ _ _ => ⟨.features names, .features rfl hne
      ((((names_comments ha).append (names_comments hb)).append (names_comments hc)).append hnames)⟩
  refine .bind (Yields.partAs (Q := fun _ => True) fun _ => ensures_true) fun m hm =>
    .bind yields_keyword fun c hc => .after fun _ => ?_
  -- in both forms that are left, the module and the keyword behind it hold no name
  obtain ⟨hfront, u, hmodule⟩ := module_of_part ha hm
  have hnames := hfront.append (names_comments hc)
  refine .ite (fun _ => ?_) fun _ => ?_
  · have hwildcard :
        Yields (leaf .wildcardImport) fun t => t.kind = .wildcardImport ∧ t.role = none :=
      fun c => by simp [leaf, Tree.role, Tree.label]
    refine .bind hwildcard.part fun ts hts => .node fun _ _ _ => ?_
    obtain ⟨cs, w, rfl, hcs, hkind, hrole⟩ := hts
    refine ⟨.everything u.text, .everything rfl ?_ ?_ hkind (hnames.append ?_)⟩
    · rw [List.append_assoc]
      exact hmodule _
    · simp
    · exact (names_comments hcs).append (names_of_role_ne (by simp [hrole]))
  · refine .bind yields_bracketedNames fun ns hns => .node fun _ _ _ => ?_
    obtain ⟨names, hne, hnames'⟩ := hns
    refine ⟨.members u.text names, .members rfl ?_ hne (hnames.append hnames')⟩
    rw [List.append_assoc]
    exact hmodule _

end Grammar

/-! ## Modules -/

lemma exists_forms_of_parse {text : String} (h : parse text = some root) :
    ∃ forms, List.Forall₂ Imports (importStatements root) forms := by
  have hchildren := forall_mem_children_of_parse
    (Q := fun t => isImport t.kind = true → ∃ form, Imports t form)
    (fun t ht h => by simp [ht] at h)
    (Grammar.imports_importStatement.mono fun _ h _ => h)
    (Grammar.imports_importFrom.mono fun _ h _ => h) h
  have hforms : ∀ t ∈ importStatements root, ∃ form, Imports t form := by
    intro t ht
    obtain ⟨hnamed, hkind⟩ := List.mem_filter.1 ht
    exact hchildren t (List.mem_filter.1 hnamed).1 hkind
  choose! form hform using hforms
  exact ⟨(importStatements root).map form,
    List.forall₂_map_right_iff.2 (List.forall₂_same.2 hform)⟩

/-- **Imports of a module.** Each import statement of a module is of one of four forms, and the
module has the dotted paths of these forms, one after another: the names of modules, and the names
of what is asked of a module behind the module and a dot. The modules of a statement are found
among its paths just if it names what it imports: a statement that asks for all names of a module
leaves no path of it behind, as one that selects features of the language. -/
theorem imports_ofText {fault? : String → Option Fault} (converter : String → Converted)
    (text : String) (unit : Unit) (h : Unit.ofText converter text fault? = .ok unit) :
    ∃ p forms, (python fault?).recover converter text = .ok p ∧ parse p.source = some p.tree ∧
      List.Forall₂ Imports (importStatements p.tree) forms ∧
      unit.imports = forms.flatMap ImportForm.paths ∧
      ∀ form ∈ forms, form.FoundIn form.paths ↔ form.Lists := by
  rw [Unit.ofText] at h
  cases hp : (python fault?).recover converter text with
  | error e =>
    rw [hp] at h
    cases h
  | ok p =>
    rw [hp] at h
    obtain rfl := Except.ok.inj h
    have hparse : parse p.source = some p.tree := tree?_of_recover hp
    obtain ⟨forms, hforms⟩ := exists_forms_of_parse hparse
    refine ⟨p, forms, rfl, hparse, hforms, imports_of_forall₂ hforms, fun form hform => ?_⟩
    obtain ⟨t, ht⟩ := exists_imports_of_mem hforms hform
    exact ht.foundIn_paths_iff

/-- A module with a statement of each form. -/
def mixedImports : String :=
  "from __future__ import division\nimport stock, sale.models as m\n" ++
    "from .tools import (clean, # both\n    fill as f)\nfrom . import *\n"

theorem imports_ofText_mixedImports : ∃ (unit : Unit) (p : Parsed Tree) (forms : List ImportForm),
    Unit.ofText (runConverter .empty {}) mixedImports = .ok unit ∧
      unit.imports = ["stock", "sale.models", ".tools.clean", ".tools.fill"] ∧
      List.Forall₂ Imports (importStatements p.tree) forms ∧
      unit.imports = forms.flatMap ImportForm.paths ∧
      ∀ form ∈ forms, form.FoundIn form.paths ↔ form.Lists := by
  obtain ⟨unit, hunit, himports⟩ := exists_of_toOption_map
    (by decide +kernel :
      (Unit.ofText (runConverter .empty {}) mixedImports).toOption.map Unit.imports =
      some ["stock", "sale.models", ".tools.clean", ".tools.fill"])
  obtain ⟨p, forms, -, -, hforms, hpaths, hfound⟩ :=
    imports_ofText (runConverter .empty {}) mixedImports unit hunit
  exact ⟨unit, p, forms, hunit, himports, hforms, hpaths, hfound⟩

/-- It is not so that a module has a path for every import statement: one that asks for all names
leaves none. -/
theorem not_forall_foundIn_imports :
    ¬ ∀ (converter : String → Converted) (text : String) (unit : Unit) (p : Parsed Tree)
      (statement : Tree) (form : ImportForm), Unit.ofText converter text = .ok unit →
      python.recover converter text = .ok p → statement ∈ importStatements p.tree →
        Imports statement form → form.FoundIn unit.imports := by
  intro h
  obtain ⟨p, hp, hstatements⟩ := exists_of_toOption_map
    (by decide +kernel :
      (python.recover (runConverter .empty {}) "from .models import *\n").toOption.map
      (fun p => ((importStatements p.tree).length, imports p.tree)) = some (1, []))
  obtain ⟨hlength, himports⟩ := Prod.mk.inj hstatements
  obtain ⟨statement, hstatement⟩ := List.length_eq_one_iff.1 hlength
  obtain ⟨forms, hforms⟩ := exists_forms_of_parse (tree?_of_recover hp)
  rw [hstatement] at hforms
  cases hforms with
  | cons hform _ =>
    have hfound := h (runConverter .empty {}) "from .models import *\n"
      ⟨classes p.tree, imports p.tree, p.status⟩ p statement _ (by rw [Unit.ofText, hp]; rfl) hp
      (by simp [hstatement]) hform
    rw [himports] at hfound
    exact hform.not_foundIn_nil hfound

end AddonAtlas.Source
