import AddonAtlas.Proofs.Catalog.Saved
import AddonAtlas.Proofs.Discovery.Scripts
import AddonAtlas.Proofs.Json.WholeFloats
import AddonAtlas.Proofs.Tool.ComplexityReports

/-!
The complexities of scripts, from the report of a linter to a saved catalog.

A script in a package has no complexity or the one that a report gives, which is the float of a
natural number. Saved and loaded, it is the same again if the number is not too large. Beyond that
a catalog may be loaded with another float, and an infinite float is saved as if there was none.
-/

namespace AddonAtlas

open Tool

/-! ## Scripts in packages -/

namespace Site

variable {s : Site} {dir : Path} {p q : Package} {m : ScriptModule}

lemma mem_values_foldl_fileScript {l : List ScriptAt} {modules : NameMap ScriptModule}
    (h : m ∈ (l.foldl s.fileScript modules).values) :
    m ∈ modules.values ∨ ∃ e ∈ l, s.module? e = some m := by
  induction l generalizing modules with
  | nil => exact .inl h
  | cons e l ih =>
    rcases ih h with h | ⟨e', he', hm⟩
    · rw [fileScript] at h
      cases he : s.module? e with
      | none =>
        rw [he] at h
        exact .inl h
      | some m' =>
        rw [he, Option.elim_some, OrdMap.mem_values_iff] at h
        obtain ⟨k, hk⟩ := h
        rw [OrdMap.get?_insert] at hk
        split at hk
        · obtain rfl := Option.some.inj hk
          exact .inr ⟨e, List.mem_cons_self, he⟩
        · exact .inl (OrdMap.mem_values_iff.2 ⟨k, hk⟩)
    · exact .inr ⟨e', List.mem_cons_of_mem e he', hm⟩

lemma complexity_of_module? {e : ScriptAt} (h : s.module? e = some m) :
    m.complexity = s.scriptComplexity? e.file := by
  obtain ⟨text, -, rfl⟩ := Option.map_eq_some_iff.1 h
  rfl

lemma analysed_congr {t : Site} (h : s.files = t.files) (files : PathSet) (l : List ScriptAt) :
    s.analysed files l = t.analysed files l := by
  induction l generalizing files with
  | nil => rfl
  | cons e l ih => simp only [analysed, h, ih]

/-- The scripts of a package, one filed after the other. -/
lemma scriptModules_of_assemble (h : s.assemble dir = .ok (.package p)) :
    ∃ l : List ScriptAt, p.scriptModules = l.foldl s.fileScript .empty := by
  obtain ⟨a, b, c, hstages⟩ := exists_stages h
  have hbefore : b.scriptModules = .empty := by
    rw [scriptModules_readCode hstages.readCode]
    obtain ⟨manifest, depends, status, words, rfl⟩ := eq_of_readManifests hstages.readManifests
    rfl
  refine ⟨s.analysed b.files (s.scriptsOf dir p), ?_⟩
  rw [hstages.sameScripts.modules, scriptModules_readScriptList, hbefore]

/-- The complexity of a script in a package is the one that the report on a file gives. -/
lemma complexity_of_assemble (h : s.assemble dir = .ok (.package p))
    (hm : m ∈ p.scriptModules.values) :
    ∃ file, m.complexity = s.scriptComplexity? file := by
  obtain ⟨l, hl⟩ := scriptModules_of_assemble h
  rw [hl] at hm
  rcases mem_values_foldl_fileScript hm with hm | ⟨e, -, he⟩
  · cases hm
  · exact ⟨e.file, complexity_of_module? he⟩

end Site

/-! ## Saved scripts -/

namespace Package

open Json

/-- What is left of a package without its scripts. -/
def withoutScripts (p : Package) : Package := { p with scriptModules := .empty }

lemma Storable.of_withoutScripts {p : Package} (h : p.withoutScripts.Storable)
    (hscripts : ∀ m ∈ p.scriptModules.values, ∀ x ∈ m.complexity, RoundTrips x) : p.Storable :=
  ⟨h.plain, h.canonical, h.models, h.classes, hscripts, h.files, h.language, h.duration⟩

end Package

namespace Catalog

open Tool.ComplexityReport

variable {s : Site} {c : Catalog}

/-- A catalog with the scripts of packages of a site, which can be saved and loaded without them. -/
structure HasScriptsOf (c : Catalog) (s : Site) : Prop where
  assembled : ∀ p ∈ c.full.values, ∃ dir q, s.assemble dir = .ok (.package q) ∧
    p.scriptModules = q.scriptModules
  storable : ∀ p ∈ c.full.values, p.withoutScripts.Storable
  depth : ∀ p ∈ c.full.values, p.manifestDepth ≤ deepestManifest

/-- The linter of a site gives a report on a file. -/
def Lints (s : Site) (file : Path) (report : String) : Prop :=
  s.output? s.settings.tools.scriptComplexity file = some report

lemma HasScriptsOf.exists_report (h : c.HasScriptsOf s) {p : Package} (hp : p ∈ c.full.values)
    {m : ScriptModule} (hm : m ∈ p.scriptModules.values) {x : Float} (hx : x ∈ m.complexity) :
    ∃ file report, Lints s file report ∧ read? report = some x := by
  obtain ⟨dir, q, hq, hsame⟩ := h.assembled p hp
  obtain ⟨file, hfile⟩ := Site.complexity_of_assemble hq (hsame ▸ hm)
  rw [hfile, Option.mem_def, Site.scriptComplexity?, Option.bind_eq_some_iff] at hx
  obtain ⟨report, hreport, hread⟩ := hx
  exact ⟨file, report, hreport, hread⟩

/-- A catalog comes back if the linter names no number that is too large. -/
lemma HasScriptsOf.exists_ofJson? (h : c.HasScriptsOf s)
    (hsmall : ∀ file report n,
      Lints s file report → Names Text.isDigit report n → 10 * n ≤ 2 ^ 54) :
    ∃ d, ofJson? c.toJson = some d ∧ d.full = c.full := by
  have hstorable : c.Storable := fun p hp => by
    refine (h.storable p hp).of_withoutScripts fun m hm x hx => ?_
    obtain ⟨file, report, hlints, hread⟩ := h.exists_report hp hm hx
    rcases readsLargest_isDigit report with ⟨-, hnone⟩ | ⟨n, hn, hsome⟩
    · cases hread.symm.trans hnone
    · obtain rfl := Option.some.inj (hread.symm.trans hsome)
      exact Json.roundTrips_ofNat (hsmall file report n hlints hn.1)
  rw [hstorable.ofJson?_eq, if_pos (hstorable.depth_le_iff.2 h.depth)]
  exact ⟨_, rfl, rfl⟩

/-- A script with an infinite complexity has the text of one without. -/
lemma compact_value_of_infinite (m : ScriptModule) {x : Float} (hx : x.isFinite = false) :
    Json.compact { m with complexity := some x }.value =
      Json.compact { m with complexity := none }.value := by
  have hfloat : Json.compact (.float x) = Json.compact .null := by
    simp [Json.compact, Json.scalar, hx]
  simp only [ScriptModule.value, Json.compact, Json.compactFields, Option.map_some, Option.map_none,
    Option.getD_some, Option.getD_none] at hfloat ⊢
  rw [hfloat]

/-- **Complexities of scripts.** A report gives the float of the largest number that its messages
name, if they name one. Where ASCII digits come first among the digits of all scripts, these are
the numbers in ASCII digits. The float is finite unless the number is too large. Each complexity in
a package is one that a report gives. If the linter names no number whose tenfold has more than 54
bits, then all of them are the same after saving and loading. An infinite one is saved as if there
was none. -/
theorem complexity_saved (s : Site) (c : Catalog) (h : c.HasScriptsOf s) :
    (∀ report, ReadsLargest Text.isDigit report ∧
      ((∀ text ds, HasMessage report text → FirstDigits Text.isDigit text.toList ds →
        ∀ d ∈ ds, d.isDigit = true) → ReadsLargest Char.isDigit report)) ∧
    (∀ n, (Float.ofNat n).isFinite = true ↔ n < 2 ^ 1024 - 2 ^ 970) ∧
    (∀ p ∈ c.full.values, ∀ m ∈ p.scriptModules.values, ∀ x ∈ m.complexity,
      ∃ file report, Lints s file report ∧ read? report = some x) ∧
    ((∀ file report n, Lints s file report → Names Text.isDigit report n → 10 * n ≤ 2 ^ 54) →
      ∃ d, ofJson? c.toJson = some d ∧ d.full = c.full) ∧
    ∀ (m : ScriptModule) (x : Float), x.isFinite = false →
      Json.compact { m with complexity := some x }.value =
        Json.compact { m with complexity := none }.value :=
  ⟨fun report => ⟨readsLargest_isDigit report, readsLargest_ascii⟩,
    fun _ => Decimal.isFinite_ofNat_iff, fun _ hp _ hm _ hx => h.exists_report hp hm hx,
    h.exists_ofJson?, fun m _ => compact_value_of_infinite m⟩

/-! ### A linter that finds a script of complexity seven -/

def sevenReport : String := reportOf (naming 7)

/-- A site with scripts whose linter gives the same report on every file. -/
def sevenSite : Site := { Site.cartSite with tools := fun _ _ _ => finished 0 sevenReport }

/-- The scripts of the site, filed one after the other. -/
def sevenScripts : NameMap ScriptModule := Site.cartScripts.foldl sevenSite.fileScript .empty

def sevenSale : Package :=
  { path := ⟨"sale"⟩, name := "sale", scriptModules := sevenScripts, durationSeconds := 0.0 }

def sevenCatalog : Catalog := ofPackages [sevenSale]

lemma lints_sevenSite {file : Path} {report : String} :
    Lints sevenSite file report ↔ report = sevenReport := by
  have hlint : sevenSite.output? sevenSite.settings.tools.scriptComplexity file =
      some (lossyText sevenReport.toUTF8) := rfl
  have htext : lossyText sevenReport.toUTF8 = sevenReport := by
    rw [lossyText, String.toUTF8_eq_toByteArray, Text.fromUTF8?_toByteArray]
  rw [Lints, hlint, htext, Option.some_inj, eq_comm]

lemma exists_sevenPackage : ∃ q, sevenSite.assemble ⟨"sale"⟩ = .ok (.package q) ∧
    q.scriptModules = sevenScripts := by
  obtain ⟨fields, hfields, hlisted⟩ := Site.exists_readManifest_cart
  obtain ⟨u, hu, hscripts⟩ := Site.exists_dataFile_cartSite
  have hname : (Site.described "sale" fields).name = "sale" :=
    Site.name_described (by decide) fields
  have hmarkup : sevenSite.dataFile "sale" ((Path.mk "sale").join "v.xml") = .markup u := hu
  obtain ⟨q, hq⟩ : ∃ q, sevenSite.readDataFile ⟨""⟩ (Site.described "sale" fields)
      ((Path.mk "sale").join "v.xml") = .ok q := by
    rw [Site.readDataFile_eq, hname, hmarkup]
    exact ⟨_, rfl⟩
  have hplain : sevenSite.readScripts ⟨"sale"⟩
      (sevenSite.readAside ⟨"sale"⟩ (Site.described "sale" fields)) =
        Site.described "sale" fields := rfl
  have hentry : sevenSite.files.readText? ((Path.mk "sale").join "__init__.py") = some "" :=
    Site.hasManifest_cartSite.readText? (by decide) (by decide +kernel)
  obtain ⟨digest, hassemble⟩ := Site.HasManifest.exists_assemble (s := sevenSite) (p := q) rfl rfl
    Site.hasManifest_cartSite hfields (FileTree.isFile_of_readText? hentry) (if_pos rfl) (by
      rw [hplain, Site.parent?_sale, Site.dataPaths_cart rfl hlisted, Site.readDataFiles,
        List.foldlM_cons, hq]
      rfl)
  refine ⟨_, hassemble, ?_⟩
  have hdata : sevenSite.dataScripts ⟨""⟩ (Site.described "sale" fields).name
      [(Path.mk "sale").join "v.xml"] = Site.cartScripts := by
    rw [hname, Site.dataScripts, List.flatMap_singleton, hmarkup]
    exact hscripts
  have hanalysed : sevenSite.analysed .empty Site.cartScripts = Site.cartScripts :=
    (Site.analysed_congr rfl _ _).trans Site.analysed_cartScripts
  have hsame : q.scriptModules = _ := (Site.sameScripts_readDataFile hq).modules
  rw [hdata, Site.scriptModules_readScriptList] at hsame
  exact hsame.trans (congrArg (fun l => List.foldl sevenSite.fileScript .empty l) hanalysed)

lemma storable_sevenSale : sevenSale.withoutScripts.Storable where
  plain := fun _ h => nomatch h
  canonical := fun _ h => nomatch h
  models := fun _ h => nomatch h
  classes := fun _ h => nomatch h
  scripts := fun _ h => nomatch h
  files := fun _ h => nomatch h
  language := fun _ h => nomatch h
  duration := roundTrips_zero

lemma hasScriptsOf_seven : sevenCatalog.HasScriptsOf sevenSite := by
  have hvalues : sevenCatalog.full.values = [sevenSale] := rfl
  obtain ⟨q, hq, hscripts⟩ := exists_sevenPackage
  refine ⟨?_, ?_, ?_⟩
  all_goals rw [hvalues, List.forall_mem_singleton]
  · exact ⟨⟨"sale"⟩, q, hq, hscripts.symm⟩
  · exact storable_sevenSale
  · decide

lemma scriptComplexity?_sevenSite (file : Path) :
    sevenSite.scriptComplexity? file = some (Float.ofNat 7) := by
  have hlints : Lints sevenSite file sevenReport := lints_sevenSite.2 rfl
  rw [Lints] at hlints
  rw [Site.scriptComplexity?, hlints, Option.bind_some, sevenReport, read?_reportOf]

/-- The complexity is found. -/
lemma exists_complexity_seven :
    ∃ m ∈ sevenScripts.values, m.complexity = some (Float.ofNat 7) := by
  have htext := Site.readText?_cartSite _ (List.mem_cons_of_mem _ List.mem_cons_self)
  obtain ⟨m, hm⟩ : ∃ m, sevenSite.module?
      ⟨⟨"sale/static/src/cart/index.js"⟩, "sale/static/src/cart/index.js"⟩ = some m :=
    ⟨_, congrArg (Option.map _) htext⟩
  refine ⟨m, OrdMap.mem_values_iff.2 ⟨m.name, ?_⟩, ?_⟩
  · rw [sevenScripts, Site.cartScripts, List.foldl_cons, List.foldl_cons, List.foldl_nil,
      Site.fileScript, hm, Option.elim_some, OrdMap.get?_insert, if_pos rfl]
  · rw [Site.complexity_of_module? hm, scriptComplexity?_sevenSite]

theorem complexity_saved_seven : sevenCatalog.HasScriptsOf sevenSite ∧
    (∃ m ∈ sevenScripts.values, m.complexity = some (Float.ofNat 7)) ∧
    ∃ d, ofJson? sevenCatalog.toJson = some d ∧ d.full = sevenCatalog.full := by
  obtain ⟨-, -, -, hback, -⟩ := complexity_saved sevenSite sevenCatalog hasScriptsOf_seven
  refine ⟨hasScriptsOf_seven, exists_complexity_seven, hback fun file report n hlints hnames => ?_⟩
  obtain rfl := lints_sevenSite.1 hlints
  rw [names_reportOf.1 hnames]
  decide

/-! ### Reports that go wrong -/

/-- A message with an Arabic digit before an ASCII one. -/
def arabicMessage : String := "complexity of \u0663, complexity of 5"

lemma names_arabicMessage : Names Char.isDigit (reportOf arabicMessage) 5 := by
  have hfive : firstDigits? Char.isDigit arabicMessage.toList = some ['5'] := by decide +kernel
  have hascii : ∀ c ∈ ['5'], c.isDigit = true := List.forall_mem_singleton.2 rfl
  refine ⟨arabicMessage, ['5'], ?_, firstDigits?_eq_some_iff.1 hfive, hascii, rfl⟩
  rw [← mem_texts_iff, texts_reportOf]
  exact List.mem_singleton_self _

lemma read?_arabicMessage : read? (reportOf arabicMessage) = none := by
  have hnone : number? arabicMessage = none := by decide +kernel
  rw [read?_eq, texts_reportOf, List.filterMap_cons, hnone]
  rfl

/-- The first number whose tenfold has more than 54 bits. -/
def tooLong : Nat := 1801439850948199

lemma not_roundTrips_tooLong : ¬ Json.RoundTrips (Float.ofNat tooLong) := by
  intro h
  have hbits : (Float.ofNat (10 * tooLong) / Float.ofScientific 1 false 1).toBits ≠
      (Float.ofNat tooLong).toBits := by decide +kernel
  have hsmall : tooLong < 2 ^ 52 := by decide +kernel
  have htenth := (Json.number_scalar_ofNat (by decide) hsmall).symm.trans h.reads
  have hsame := Value.float.inj (Prod.mk.inj (Option.some.inj htenth)).1
  exact hbits (congrArg Float.toBits hsame)

/-- It is not so that ASCII digits are found behind others, that complexities are finite and that
they come back. -/
theorem not_complexity_saved : ¬ ReadsLargest Char.isDigit (reportOf arabicMessage) ∧
    (∃ x, read? (reportOf (naming (10 ^ 309))) = some x ∧ x.isFinite = false) ∧
    ∃ x, read? (reportOf (naming tooLong)) = some x ∧ ¬ Json.RoundTrips x := by
  refine ⟨?_, ⟨_, read?_reportOf _, ?_⟩, _, read?_reportOf _, not_roundTrips_tooLong⟩
  · rintro (⟨hnone, -⟩ | ⟨n, -, hn⟩)
    · exact hnone 5 names_arabicMessage
    · cases read?_arabicMessage.symm.trans hn
  · rw [← Bool.not_eq_true, Decimal.isFinite_ofNat_iff]
    decide +kernel

end Catalog

end AddonAtlas
