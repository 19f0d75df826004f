import AddonAtlas.Package.Json
import AddonAtlas.Proofs.Json.Decode

/-!
Packages read back from their saved form.

What a type cannot say of a package is said by `Storable`: its manifest is plain data in canonical
form, each of its files stands under its own key, and its floats read back from their text. Nothing
in a package but its manifest can be nested deeply, so the depth of a saved package is that of its
manifest.
-/

namespace AddonAtlas

open Json

variable {d : Nat}

/-! ## Parts of packages -/

lemma Field.saves (f : Field) : Saves (d + 1) ofValue? f f.value := by
  have htype : Saves d text? f.typeTag _ := saves_text f.typeTag
  have hsource : Saves d (nullable text?) f.sourceText _ := saves_optionalText f.sourceText
  refine saves_object ?_ (bind_fields (by decide) rfl ?_)
  · simp only [List.forall_mem_cons]
    exact ⟨htype.part, hsource.part, fun _ h => nomatch h⟩
  · refine bind_required rfl htype ?_
    exact bind_defaulted rfl hsource rfl

lemma Function.saves {f : Function} (h : RoundTrips f.halstead) :
    Saves (d + 2) ofValue? f f.value := by
  have hparameters : Saves (d + 1) texts? f.parameters _ := saves_texts f.parameters
  have hcomplexity : Saves (d + 1) word32? f.complexity _ := saves_word32 f.complexity
  have hlines : Saves (d + 1) word32? f.lines _ := saves_word32 f.lines
  have hhalstead : Saves (d + 1) float? f.halstead _ := saves_float h
  refine saves_object ?_ (bind_fields (by decide) rfl ?_)
  · simp only [List.forall_mem_cons]
    exact ⟨hparameters.part, hcomplexity.part, hlines.part, hhalstead.part, fun _ h => nomatch h⟩
  · refine bind_required rfl hparameters ?_
    refine bind_defaulted rfl hcomplexity ?_
    refine bind_defaulted rfl hlines ?_
    exact bind_defaulted rfl hhalstead rfl

/-- A model whose measures read back from their text. -/
def Model.Storable (m : Model) : Prop := ∀ f ∈ m.functions.values, RoundTrips f.halstead

lemma Model.saves {m : Model} (h : m.Storable) : Saves (d + 4) ofValue? m m.value := by
  have hname : Saves (d + 3) (nullable text?) m.name _ := saves_optionalText m.name
  have hinherit : Saves (d + 3) names? m.inherit _ := saves_names m.inherit
  have hinherits : Saves (d + 3) (map? text?) m.inherits _ := saves_map fun s _ => saves_text s
  have hfields : Saves (d + 3) (map? Field.ofValue?) m.fields _ := saves_map fun f _ => f.saves
  have hfunctions : Saves (d + 3) (map? Function.ofValue?) m.functions _ :=
    saves_map fun f hf => Function.saves (h f hf)
  refine saves_object ?_ (bind_fields (by decide) rfl ?_)
  · simp only [List.forall_mem_cons]
    exact ⟨hname.part, hinherit.part, hinherits.part, hfields.part, hfunctions.part,
      fun _ h => nomatch h⟩
  · refine bind_defaulted rfl hname ?_
    refine bind_defaulted rfl hinherit ?_
    refine bind_defaulted rfl hinherits ?_
    refine bind_defaulted rfl hfields ?_
    exact bind_defaulted rfl hfunctions rfl

lemma Record.saves (r : Record) : Saves (d + 2) ofValue? r r.value := by
  have hname : Saves (d + 1) text? r.name _ := saves_text r.name
  have hinherit : Saves (d + 1) (nullable text?) r.inherit _ := saves_optionalText r.inherit
  have hcalls : Saves (d + 1) names? r.calls _ := saves_names r.calls
  have hmodel : Saves (d + 1) (nullable text?) r.model _ := saves_optionalText r.model
  have hcomplexity : Saves (d + 1) word64? r.complexity _ := saves_word64 r.complexity
  have hlines : Saves (d + 1) word64? r.lines _ := saves_word64 r.lines
  have hview : Saves (d + 1) bool? r.view _ := saves_bool r.view
  refine saves_object ?_ (bind_fields (by decide) rfl ?_)
  · simp only [List.forall_mem_cons]
    exact ⟨hname.part, hinherit.part, hcalls.part, hmodel.part, hcomplexity.part, hlines.part,
      hview.part, fun _ h => nomatch h⟩
  · refine bind_required rfl hname ?_
    refine bind_defaulted rfl hinherit ?_
    refine bind_defaulted rfl hcalls ?_
    refine bind_defaulted rfl hmodel ?_
    refine bind_defaulted rfl hcomplexity ?_
    refine bind_defaulted rfl hlines ?_
    exact bind_defaulted rfl hview rfl

lemma ScriptModule.saves {s : ScriptModule} (h : ∀ x ∈ s.complexity, RoundTrips x) :
    Saves (d + 2) ofValue? s s.value := by
  have hname : Saves (d + 1) text? s.name _ := saves_text s.name
  have hother : Saves (d + 1) (nullable text?) s.otherName _ := saves_optionalText s.otherName
  have hdefault : Saves (d + 1) bool? s.default _ := saves_bool s.default
  have hrequires : Saves (d + 1) names? s.requires _ := saves_names s.requires
  have hcomplexity : Saves (d + 1) (nullable float?) s.complexity _ := saves_optionalFloat h
  refine saves_object ?_ (bind_fields (by decide) rfl ?_)
  · simp only [List.forall_mem_cons]
    exact ⟨hname.part, hother.part, hdefault.part, hrequires.part, hcomplexity.part,
      fun _ h => nomatch h⟩
  · refine bind_required rfl hname ?_
    refine bind_defaulted rfl hother ?_
    refine bind_defaulted rfl hdefault ?_
    refine bind_defaulted rfl hrequires ?_
    exact bind_defaulted rfl hcomplexity rfl

lemma LanguageShare.saves {s : LanguageShare} (h : RoundTrips s.fraction) :
    Saves (d + 1) ofValue? s s.value := by
  have hlines : Saves d word64? s.lines _ := saves_word64 s.lines
  have hfraction : Saves d float? s.fraction _ := saves_float h
  refine saves_object ?_ (bind_fields (by decide) rfl ?_)
  · simp only [List.forall_mem_cons]
    exact ⟨hlines.part, hfraction.part, fun _ h => nomatch h⟩
  · refine bind_required rfl hlines ?_
    exact bind_required rfl hfraction rfl

/-! ## Packages -/

namespace Package

/-- What the types leave open of a package that is saved: plain data in the manifest, files under
their own keys, and floats that read back from their text. -/
structure Storable (p : Package) : Prop where
  plain : ∀ v ∈ p.manifest.values, v.Writable
  canonical : ∀ v ∈ p.manifest.values, v.canonical = v
  models : ∀ m ∈ p.models.values, m.Storable
  classes : ∀ m ∈ p.classes.values, m.Storable
  scripts : ∀ s ∈ p.scriptModules.values, ∀ x ∈ s.complexity, RoundTrips x
  files : p.files.Keyed
  language : ∀ s ∈ p.language.values, RoundTrips s.fraction
  duration : RoundTrips p.durationSeconds

variable {p : Package}

/-- How deep the manifest of a package is nested, itself counted. -/
def manifestDepth (p : Package) : Nat := (Value.ofMap p.manifest).depth

lemma saves (h : p.Storable) (hd : p.manifestDepth ≤ d + 5) :
    Saves (d + 6) ofValue? p p.value := by
  have hpath : Saves (d + 5) path? p.path _ := saves_path p.path
  have hname : Saves (d + 5) text? p.name _ := saves_text p.name
  have hmanifest : Saves (d + 5) manifest? p.manifest (.ofMap p.manifest) :=
    ⟨.object fun e he => h.plain e.2 (List.mem_map_of_mem he), hd,
      manifest?_ofMap h.plain h.canonical⟩
  have hmodels : Saves (d + 5) (map? Model.ofValue?) p.models _ :=
    saves_map fun m hm => Model.saves (h.models m hm)
  have hclasses : Saves (d + 5) (map? Model.ofValue?) p.classes _ :=
    saves_map fun m hm => Model.saves (h.classes m hm)
  have hscripts : Saves (d + 5) (map? ScriptModule.ofValue?) p.scriptModules _ :=
    saves_map fun s hs => ScriptModule.saves (h.scripts s hs)
  have hviews : Saves (d + 5) (map? Record.ofValue?) p.views _ := saves_map fun r _ => r.saves
  have hrecords : Saves (d + 5) (map? Record.ofValue?) p.records _ := saves_map fun r _ => r.saves
  have hdepends : Saves (d + 5) names? p.depends _ := saves_names p.depends
  have himports : Saves (d + 5) names? p.imports _ := saves_names p.imports
  have hrefers : Saves (d + 5) names? p.refers _ := saves_names p.refers
  have hfiles : Saves (d + 5) paths? p.files _ := saves_paths h.files
  have hstatus : Saves (d + 5) names? p.status _ := saves_names p.status
  have hlanguage : Saves (d + 5) (map? LanguageShare.ofValue?) p.language _ :=
    saves_map fun s hs => LanguageShare.saves (h.language s hs)
  have hwords : Saves (d + 5) names? p.words _ := saves_names p.words
  have hhashsum : Saves (d + 5) text? p.hashsum _ := saves_text p.hashsum
  have hcount : Saves (d + 5) word64? p.dataCount _ := saves_word64 p.dataCount
  have hduration : Saves (d + 5) float? p.durationSeconds _ := saves_float h.duration
  refine saves_object ?_ (bind_fields (by decide) rfl ?_)
  · simp only [List.forall_mem_cons]
    exact ⟨hpath.part, hname.part, hmanifest.part, hmodels.part, hclasses.part, hscripts.part,
      hviews.part, hrecords.part, hdepends.part, himports.part, hrefers.part, hfiles.part,
      hstatus.part, hlanguage.part, hwords.part, hhashsum.part, hcount.part, hduration.part,
      fun _ h => nomatch h⟩
  · refine bind_required rfl hpath ?_
    refine bind_required rfl hname ?_
    refine bind_defaulted rfl hmanifest ?_
    refine bind_defaulted rfl hmodels ?_
    refine bind_defaulted rfl hclasses ?_
    refine bind_defaulted rfl hscripts ?_
    refine bind_defaulted rfl hviews ?_
    refine bind_defaulted rfl hrecords ?_
    refine bind_defaulted rfl hdepends ?_
    refine bind_defaulted rfl himports ?_
    refine bind_defaulted rfl hrefers ?_
    refine bind_defaulted rfl hfiles ?_
    refine bind_defaulted rfl hstatus ?_
    refine bind_defaulted rfl hlanguage ?_
    refine bind_defaulted rfl hwords ?_
    refine bind_defaulted rfl hhashsum ?_
    refine bind_defaulted rfl hcount ?_
    exact bind_defaulted rfl hduration rfl

lemma writable_value (h : p.Storable) : p.value.Writable :=
  (saves h (Nat.le_add_right p.manifestDepth 5)).writable

lemma ofValue?_value (h : p.Storable) : ofValue? p.value = some p :=
  (saves h (Nat.le_add_right p.manifestDepth 5)).decoded

/-- A saved package is nested one step deeper than its manifest, unless that is flat. -/
lemma depth_value_le_iff (h : p.Storable) : p.value.depth ≤ d + 6 ↔ p.manifestDepth ≤ d + 5 := by
  refine ⟨fun hd => ?_, fun hd => (saves h hd).depth⟩
  exact depth_object_le_iff.1 hd ("manifest", .ofMap p.manifest) (by simp)

end Package

end AddonAtlas
