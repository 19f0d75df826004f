import AddonAtlas.Proofs.Discovery.Classes
import Mathlib.Data.List.DropRight

/-!
What relative imports lead to.

The dots of a relative import only tell it from other imports. The names behind them are walked
from the directory of the importing source, however many dots there are, so nothing outside this
directory is followed.
-/

namespace AddonAtlas

open AddonAtlas.Path

/-! ## Statements -/

namespace Source

/-- The path that `from <dots><chain> import <name>` imports. -/
def relativePath (dots : Nat) (chain : List String) (name : String) : String :=
  String.ofList (List.replicate dots '.') ++ ".".intercalate chain ++ "." ++ name

/-- A statement that imports a name from a module. The chain of the module may be empty. -/
@[mk_iff]
structure RelativeFrom (statement : Tree) (dots : Nat) (chain : List String) (name : String) :
    Prop where
  kind : statement.kind = .importFromStatement
  moduleName : (statement.child? .moduleName).map Tree.text =
    some (String.ofList (List.replicate dots '.') ++ ".".intercalate chain)
  imported : ∃ c ∈ statement.children, c.role = some .name ∧ importedName c = name
  dotless : ∀ x ∈ chain ++ [name], x ≠ "" ∧ '.' ∉ x.toList

variable {statement : Tree} {dots : Nat} {chain : List String} {name : String}

instance : Decidable (RelativeFrom statement dots chain name) :=
  decidable_of_iff' _ (relativeFrom_iff ..)

lemma RelativeFrom.mem_importPaths (h : RelativeFrom statement dots chain name) :
    relativePath dots chain name ∈ importPaths statement := by
  obtain ⟨c, hc, hrole, hname⟩ := h.imported
  obtain ⟨m, hm, htext⟩ := Option.map_eq_some_iff.1 h.moduleName
  have hmem : name ∈ (statement.children.filter fun c => c.role == some .name).map importedName :=
    List.mem_map.2 ⟨c, List.mem_filter.2 ⟨hc, by simp [hrole]⟩, hname⟩
  simp only [importPaths, h.kind, hm, htext]
  exact List.mem_map.2 ⟨name, hmem, rfl⟩

lemma RelativeFrom.mem_imports (h : RelativeFrom statement dots chain name) {root : Tree}
    (hroot : statement ∈ root.namedChildren) : relativePath dots chain name ∈ imports root :=
  List.mem_flatMap.2
    ⟨statement, List.mem_filter.2 ⟨hroot, by simp [h.kind]⟩, h.mem_importPaths⟩

/-- The dot in front of the name counts as one more dot if the chain is empty. -/
lemma exists_toList_relativePath (dots : Nat) (chain : List String) (name : String) :
    ∃ k, dots ≤ k ∧ (relativePath dots chain name).toList =
      List.replicate k '.' ++ (".".intercalate (chain ++ [name])).toList := by
  by_cases hchain : chain = []
  · exact ⟨dots + 1, Nat.le_succ dots, by simp [relativePath, hchain, List.replicate_succ']⟩
  · refine ⟨dots, Nat.le_refl dots, ?_⟩
    rw [String.intercalate_append_of_ne_nil hchain (by simp)]
    simp [relativePath]

end Source

/-! ## Walks -/

namespace Import

open Source

variable {t : FileTree} {entryPoint : String} {d f : Path} {chain : List String}

/-- The source that a name stands for in a directory: a file of the name or, where there is none,
the entry point of the directory of the name. -/
def SourceOf (t : FileTree) (entryPoint : String) (d : Path) (x : String) (f : Path) : Prop :=
  t.isFile (d.join (x ++ ".py")) = true ∧ f = d.join (x ++ ".py") ∨
    t.isFile (d.join (x ++ ".py")) = false ∧ t.isFile ((d.join x).join entryPoint) = true ∧
      f = (d.join x).join entryPoint

/-- Names that are walked through: directories without files of their names beside them. -/
def Passes (t : FileTree) : Path → List String → Prop
  | _, [] => True
  | d, x :: r =>
    t.isFile (d.join (x ++ ".py")) = false ∧ t.isDirectory (d.join x) = true ∧
      Passes t (d.join x) r

/-- A source that a chain of names leads to from a directory: one of its names, behind others that
are walked through. -/
def LeadsTo (t : FileTree) (entryPoint : String) (d : Path) (chain : List String)
    (f : Path) : Prop :=
  ∃ front x back, chain = front ++ x :: back ∧ Passes t d front ∧
    SourceOf t entryPoint (d.descend front) x f

lemma mem_resolveSegments_cons (hentry : IsName entryPoint) {x : String} {r : List String}
    (hx : x ≠ "") :
    f ∈ resolveSegments t entryPoint d (x :: r) ↔ SourceOf t entryPoint d x f ∨
      t.isFile (d.join (x ++ ".py")) = false ∧ t.isDirectory (d.join x) = true ∧
        f ∈ resolveSegments t entryPoint (d.join x) r := by
  have hempty : x.isEmpty = false := by simpa using hx
  have hbelow : t.isFile ((d.join x).join entryPoint) = true → t.isDirectory (d.join x) = true :=
    fun h => FileTree.isDirectory_of_hasNode_join (isAbsolute_of_isName hentry)
      (text_join_ne (.inr hx)) (FileTree.hasNode_of_isFile h)
  simp only [resolveSegments, SourceOf, hempty]
  cases hsource : t.isFile (d.join (x ++ ".py")) with
  | true => simp
  | false =>
    cases hentry : t.isFile ((d.join x).join entryPoint) with
    | true => simp [hbelow hentry]
    | false => cases hdir : t.isDirectory (d.join x) <;> simp

lemma leadsTo_cons {x : String} {r : List String} :
    LeadsTo t entryPoint d (x :: r) f ↔ SourceOf t entryPoint d x f ∨
      t.isFile (d.join (x ++ ".py")) = false ∧ t.isDirectory (d.join x) = true ∧
        LeadsTo t entryPoint (d.join x) r f := by
  constructor
  · rintro ⟨front, y, back, hchain, hpass, hf⟩
    cases front with
    | nil =>
      obtain ⟨rfl, rfl⟩ := List.cons.inj hchain
      exact .inl hf
    | cons z front =>
      obtain ⟨rfl, rfl⟩ := List.cons.inj hchain
      exact .inr ⟨hpass.1, hpass.2.1, front, y, back, rfl, hpass.2.2, hf⟩
  · rintro (hf | ⟨hsource, hdir, front, y, back, rfl, hpass, hf⟩)
    · exact ⟨[], x, r, rfl, trivial, hf⟩
    · exact ⟨x :: front, y, back, rfl, ⟨hsource, hdir, hpass⟩, hf⟩

/-- Segments pull in what their chain leads to. -/
lemma mem_resolveSegments_iff (hentry : IsName entryPoint) (hchain : ∀ x ∈ chain, x ≠ "") :
    f ∈ resolveSegments t entryPoint d chain ↔ LeadsTo t entryPoint d chain f := by
  induction chain generalizing d with
  | nil => simp [resolveSegments, LeadsTo]
  | cons x r ih =>
    rw [mem_resolveSegments_cons hentry (hchain x (by simp)), leadsTo_cons,
      ih fun y hy => hchain y (List.mem_cons_of_mem x hy)]

/-! ## Dots -/

variable {settings : DiscoverySettings} {dots : Nat} {name path : String}

lemma after?_eq_none {beginning text : String} :
    after? beginning text = none ↔ ¬ beginning.toList <+: text.toList := by
  simp [after?]

/-- A path leads to a source just if settings tell of no package that it belongs to. -/
lemma classify_eq_localSource_iff :
    classify settings path = .localSource ↔
      (∀ b ∈ settings.addonsPrefixes, ¬ b.toList <+: path.toList) ∧
        head path.toList ∉ settings.frameworkPackages := by
  unfold classify
  cases hfound : settings.addonsPrefixes.findSome? fun b => after? b path with
  | none =>
    rw [List.findSome?_eq_none_iff] at hfound
    simp_all [after?_eq_none]
  | some rest =>
    obtain ⟨b, hb, hafter⟩ := List.exists_of_findSome?_eq_some hfound
    have hbegins : b.toList <+: path.toList := by
      by_contra h
      rw [after?_eq_none.2 h] at hafter
      cases hafter
    refine ⟨fun h => ?_, fun h => absurd hbegins (h.1 b hb)⟩
    dsimp only at h
    split at h <;> cases h

/-- Settings that leave a relative path to the sources of a package: no beginning of addons paths is
one of it, and no framework package goes by the empty name in front of its dots. -/
def LeavesRelative (settings : DiscoverySettings) (path : String) : Prop :=
  (∀ b ∈ settings.addonsPrefixes, ¬ b.toList <+: path.toList) ∧ "" ∉ settings.frameworkPackages

lemma exists_relativePath_cons (hdots : 1 ≤ dots) (chain : List String) (name : String) :
    ∃ r, (relativePath dots chain name).toList = '.' :: r := by
  obtain ⟨k, hk, htext⟩ := exists_toList_relativePath dots chain name
  obtain ⟨n, rfl⟩ := Nat.exists_eq_add_of_le' (hdots.trans hk)
  exact ⟨_, htext⟩

lemma head_relativePath (hdots : 1 ≤ dots) : head (relativePath dots chain name).toList = "" := by
  obtain ⟨r, hr⟩ := exists_relativePath_cons hdots chain name
  simp [head, hr]

/-- Beginnings of addons paths that begin otherwise than with dots leave all relative paths. -/
lemma leavesRelative_of_head (h : ∀ b ∈ settings.addonsPrefixes, b.toList.head?.any (· ≠ '.'))
    (hframework : "" ∉ settings.frameworkPackages) (hdots : 1 ≤ dots) :
    LeavesRelative settings (relativePath dots chain name) := by
  refine ⟨fun b hb hbegins => ?_, hframework⟩
  obtain ⟨c, hhead, hc⟩ := (Option.any_eq_true _ _).1 (h b hb)
  obtain ⟨r, hr⟩ := List.head?_eq_some_iff.1 hhead
  obtain ⟨rest, hrest⟩ := exists_relativePath_cons hdots chain name
  rw [hr, hrest] at hbegins
  exact absurd (List.cons_prefix_cons.1 hbegins).1 (by simpa using hc)

/-- **Dots.** Whatever their number is, a relative path is resolved as its chain. -/
lemma resolve_relativePath (hplain : ∀ x ∈ chain ++ [name], x ≠ "" ∧ '.' ∉ x.toList) (d : Path) :
    resolve t entryPoint d (relativePath dots chain name) =
      resolveSegments t entryPoint d (chain ++ [name]) := by
  obtain ⟨k, -, htext⟩ := exists_toList_relativePath dots chain name
  have hrest : (relativePath dots chain name).toList.dropWhile (· == '.') =
      (".".intercalate (chain ++ [name])).toList := by
    rw [htext, List.dropWhile_append_of_pos (by simp)]
    obtain ⟨x, r, hxr⟩ := List.exists_cons_of_ne_nil (show chain ++ [name] ≠ [] by simp)
    obtain ⟨hx, hdot⟩ := hplain x (by simp [hxr])
    obtain ⟨c, cs, hcs⟩ := List.exists_cons_of_ne_nil fun hl => hx (String.toList_inj.1 hl)
    have hc : c ≠ '.' := fun h => hdot (by simp [hcs, h])
    rw [hxr, String.toList_intercalate]
    cases r <;> simp [List.intercalate_cons_cons, hcs, hc]
  have hsplit := Text.splitOn_intercalate (c := '.') (by simp) fun x hx => (hplain x hx).2
  rw [resolve, hrest, String.ofList_toList]
  exact congrArg _ hsplit

lemma classify_relativePath (hdots : 1 ≤ dots) :
    classify settings (relativePath dots chain name) = .localSource ↔
      LeavesRelative settings (relativePath dots chain name) := by
  rw [classify_eq_localSource_iff, head_relativePath hdots]
  rfl

end Import

/-! ## Sources -/

namespace Site

open Import Source

variable {s : Site} {file f : Path} {dots : Nat} {chain : List String} {name : String}

lemma mem_localSources_relative (hentry : IsName s.discovery.entryPoint)
    (hplain : ∀ x ∈ chain ++ [name], x ≠ "" ∧ '.' ∉ x.toList) (hdots : 1 ≤ dots) :
    f ∈ s.localSources file [relativePath dots chain name] ↔
      LeavesRelative s.discovery (relativePath dots chain name) ∧
        LeadsTo s.files s.discovery.entryPoint (file.parent?.getD ⟨"."⟩) (chain ++ [name]) f := by
  rw [mem_localSources]
  simp only [List.mem_singleton, exists_eq_left, classify_relativePath hdots,
    resolve_relativePath hplain, mem_resolveSegments_iff hentry fun x hx => (hplain x hx).1]

/-- A package with sources of one name in its directory and in a directory of it, whose source
imports from the upper one of them. -/
def toolsTree : FileTree :=
  ((((({} : FileTree).addFile ["sale", "__manifest__.py"] hello.toUTF8).addFile
    ["sale", "__init__.py"] "from . import models\n".toUTF8).addFile
    ["sale", "models", "__init__.py"] "from ..tools import helper\n".toUTF8).addFile
    ["sale", "tools.py"] "helper = 1\n".toUTF8).addFile
    ["sale", "models", "tools.py"] "helper = 2\n".toUTF8

/-- The source that imports, in the directory of the lower one. -/
def toolsFile : Path := (Path.mk "sale/models").join "__init__.py"

lemma exists_parsed_tools : ∃ parsed, ∃ statement ∈ parsed.tree.namedChildren,
    Source.python.recover (Source.runConverter .empty {}) "from ..tools import helper\n" =
      .ok parsed ∧
      RelativeFrom statement 2 ["tools"] "helper" := by
  obtain ⟨parsed, hparsed, h⟩ := exists_of_toOption_map
    (by decide +kernel : (Source.python.recover (Source.runConverter .empty {})
      "from ..tools import helper\n").toOption.map (fun parsed => decide
        (∃ statement ∈ parsed.tree.namedChildren,
          RelativeFrom statement 2 ["tools"] "helper")) = some true)
  obtain ⟨statement, hmem, hfrom⟩ := of_decide_eq_true h
  exact ⟨parsed, statement, hmem, hparsed, hfrom⟩

lemma place?_toolsTree : toolsTree.place? ⟨"sale"⟩ = some ["sale"] :=
  (FileTree.place?_of_isName rfl (by decide)).trans (if_pos (by decide +kernel))

lemma readText?_toolsFile :
    toolsTree.readText? toolsFile = some "from ..tools import helper\n" := by
  have hread : toolsTree.readText? ((Path.mk "sale").descend ["models", "__init__.py"]) =
      some "from ..tools import helper\n" :=
    FileTree.readText?_descend (by decide) place?_toolsTree (by decide +kernel) (by decide +kernel)
  exact hread

/-- The source that has the imported name, in the same directory. -/
lemma isFile_lowerTools : toolsTree.isFile ((Path.mk "sale/models").join "tools.py") = true := by
  have hread : toolsTree.readText? ((Path.mk "sale").descend ["models", "tools.py"]) =
      some "helper = 2\n" :=
    FileTree.readText?_descend (by decide) place?_toolsTree (by decide +kernel) (by decide +kernel)
  exact FileTree.isFile_of_readText? hread

lemma parent?_toolsFile : toolsFile.parent? = some ⟨"sale/models"⟩ := by
  rw [toolsFile, parent?, components_join_name _ (by decide), List.getLast?_concat]
  decide +kernel

lemma leavesRelative_tools : LeavesRelative (codeSite toolsTree).discovery
    (relativePath 2 ["tools"] "helper") :=
  leavesRelative_of_head (by decide) (by decide) (by decide)

lemma leadsTo_lowerTools : LeadsTo toolsTree "__init__.py" (toolsFile.parent?.getD ⟨"."⟩)
    ["tools", "helper"] ((Path.mk "sale/models").join "tools.py") := by
  rw [parent?_toolsFile]
  exact ⟨[], "tools", ["helper"], rfl, trivial, .inl ⟨isFile_lowerTools, rfl⟩⟩

/-- What counted dots say: one is the directory of the source and each further one the directory
above. What is followed lies there, under the first name of the chain, and a file of this name that
is there is followed. -/
structure CountsDots (s : Site) (file : Path) (dots : Nat) (chain : List String) (name : String) :
    Prop where
  lies : ∀ f ∈ s.localSources file [relativePath dots chain name], ∃ x, ∃ l : List String,
    (chain ++ [name]).head? = some x ∧
      f.components = file.components.rdrop dots ++ l.map .name ∧
      (l.head? = some x ∨ l.head? = some (x ++ ".py"))
  found : ∀ f x, (chain ++ [name]).head? = some x → s.files.isFile f = true →
    f.components = file.components.rdrop dots ++ [.name (x ++ ".py")] →
    ∃ g ∈ s.localSources file [relativePath dots chain name], g.key = f.key

end Site

end AddonAtlas
