import AddonAtlas.Catalog.Saved
import AddonAtlas.Proofs.Package.Saved

/-!
Catalogs read back from their saved text.

The text of a catalog has two levels around each manifest, its own and that of the package. What
is left of the depth that a text can have decides whether a catalog is read back; if it is, then
nothing in it is lost.
-/

namespace AddonAtlas.Catalog

open Json

variable {c : Catalog}

/-- A catalog of packages that can be saved. -/
def Storable (c : Catalog) : Prop := ∀ p ∈ c.full.values, p.Storable

/-- How deep manifests can be nested in a catalog that is read back. -/
def deepestManifest : Nat := deepest - 2

lemma Storable.writable (h : c.Storable) : c.value.Writable :=
  .object fun e he => by
    obtain ⟨p, hp, rfl⟩ := List.mem_map.1 he
    exact Package.writable_value (h p.2 (List.mem_map_of_mem hp))

lemma Storable.depth_le_iff (h : c.Storable) :
    c.value.depth ≤ deepest ↔ ∀ p ∈ c.full.values, p.manifestDepth ≤ deepestManifest := by
  refine depth_object_le_iff.trans ⟨fun hd p hp => ?_, fun hd e he => ?_⟩
  · obtain ⟨e, he, rfl⟩ := List.mem_map.1 hp
    exact (Package.depth_value_le_iff (h e.2 hp)).1 (hd _ (List.mem_map_of_mem he))
  · obtain ⟨p, hp, rfl⟩ := List.mem_map.1 he
    have hmem : p.2 ∈ c.full.values := List.mem_map_of_mem hp
    exact (Package.depth_value_le_iff (h p.2 hmem)).2 (hd p.2 hmem)

lemma Storable.map?_value (h : c.Storable) : map? Package.ofValue? c.value = some c.full :=
  map?_object fun e he => Package.ofValue?_value (h e.2 (List.mem_map_of_mem he))

/-- A saved catalog is read back as the catalog of its full set. -/
lemma Storable.ofJson?_eq (h : c.Storable) :
    ofJson? c.toJson =
      if c.value.depth ≤ deepest then some (ofFull c.full) else none := by
  rw [ofJson?, toJson, read?_compact h.writable]
  split
  · rw [Option.bind_some, h.map?_value]
    rfl
  · rfl

/-- **Saving and loading a catalog.** A saved catalog can be read just if no manifest is nested too
deep for the text around it. It has the same full set then, all of it selected and nothing shadowed,
and is saved as the same text. -/
theorem ofJson?_toJson (c : Catalog) (h : c.Storable) :
    ((∃ d, ofJson? c.toJson = some d) ↔
      ∀ p ∈ c.full.values, p.manifestDepth ≤ deepestManifest) ∧
    ∀ d, ofJson? c.toJson = some d →
      d.full = c.full ∧ (∀ n, n ∈ d.selected.toList ↔ ∃ p, c.full.get? n = some p) ∧
      d.shadowed = [] ∧ d.toJson = c.toJson := by
  rw [h.ofJson?_eq, ← h.depth_le_iff]
  split
  · rename_i hd
    refine ⟨⟨fun _ => hd, fun _ => ⟨_, rfl⟩⟩, fun d heq => ?_⟩
    obtain rfl := Option.some.inj heq
    refine ⟨rfl, fun n => ?_, rfl, rfl⟩
    exact OrdSet.mem_ofKeys.trans OrdMap.contains_iff_exists
  · rename_i hd
    exact ⟨⟨fun ⟨_, heq⟩ => (nomatch heq), fun hle => absurd hle hd⟩, fun d heq => nomatch heq⟩

/-! ### A catalog with data of all kinds -/

lemma roundTrips_zero : RoundTrips 0.0 := ⟨by decide, by with_unfolding_all rfl⟩

lemma roundTrips_half : RoundTrips 0.5 := ⟨by decide, by with_unfolding_all rfl⟩

/-- Plain data with a float, a negative number and an object inside. -/
def samplePlain : Value :=
  .object [("bin", .null), ("lib", .list [.int (-3), .bool true, .float 0.5])]

def samplePost : Function :=
  { parameters := ["self"], complexity := 3, lines := 9, halstead := 0.5 }

def sampleOrder : Model where
  name := some "order"
  inherits := .ofList [("partner", "partner_id")]
  fields := .ofList [("note", ⟨"Char", some "Char(\"a\tb\")"⟩), ("total", ⟨"Float", none⟩)]
  functions := .ofList [("post", samplePost)]

def sampleScript : ScriptModule where
  name := "sale.form"
  otherName := some "form"
  default := false
  complexity := some 0.5

def sampleSale : Package where
  path := ⟨"addons/sale"⟩
  name := "sale"
  manifest := .ofList [("external", samplePlain)]
  models := .ofList [("order", sampleOrder)]
  scriptModules := .ofList [("sale.form", sampleScript)]
  views :=
    .ofList [("sale.view", { name := "sale.view", calls := .ofList ["web.view"], view := true })]
  depends := .ofList ["base"]
  files := .ofList [⟨"addons/sale/__init__.py"⟩]
  language := .ofList [("Python", ⟨9, 0.5⟩)]
  dataCount := 2
  durationSeconds := 0.0

def sampleCatalog : Catalog := ofPackages [sampleSale]

lemma storable_sampleSale : sampleSale.Storable where
  plain := by
    have hvalues : sampleSale.manifest.values = [samplePlain] := rfl
    rw [hvalues, List.forall_mem_singleton]
    refine .object ?_
    simp only [List.forall_mem_cons]
    refine ⟨.null, .list ?_, fun _ h => nomatch h⟩
    simp only [List.forall_mem_cons]
    exact ⟨.int ⟨by decide, by decide⟩, .bool true, .float roundTrips_half, fun _ h => nomatch h⟩
  canonical := by
    have hvalues : sampleSale.manifest.values = [samplePlain] := rfl
    rw [hvalues, List.forall_mem_singleton]
    rfl
  models := by
    have hvalues : sampleSale.models.values = [sampleOrder] := rfl
    have hfunctions : sampleOrder.functions.values = [samplePost] := rfl
    rw [hvalues, List.forall_mem_singleton, Model.Storable, hfunctions, List.forall_mem_singleton]
    exact roundTrips_half
  classes := fun _ h => nomatch h
  scripts := by
    have hvalues : sampleSale.scriptModules.values = [sampleScript] := rfl
    rw [hvalues, List.forall_mem_singleton]
    rintro x ⟨⟩
    exact roundTrips_half
  files := by
    have hentries : sampleSale.files.entries =
      [((⟨"addons/sale/__init__.py"⟩ : Path).key, ⟨"addons/sale/__init__.py"⟩)] := rfl
    rw [PathSet.Keyed, hentries, List.forall_mem_singleton]
  language := by
    have hvalues : sampleSale.language.values = [⟨9, 0.5⟩] := rfl
    rw [hvalues, List.forall_mem_singleton]
    exact roundTrips_half
  duration := roundTrips_zero

theorem ofJson?_toJson_sample :
    sampleCatalog.Storable ∧ (∀ p ∈ sampleCatalog.full.values, p.manifestDepth ≤ deepestManifest) ∧
    ∃ d, ofJson? sampleCatalog.toJson = some d ∧ d.full = sampleCatalog.full ∧
      d.toJson = sampleCatalog.toJson := by
  have hvalues : sampleCatalog.full.values = [sampleSale] := rfl
  have hstorable : sampleCatalog.Storable := by
    rw [Storable, hvalues, List.forall_mem_singleton]
    exact storable_sampleSale
  have hdepth : ∀ p ∈ sampleCatalog.full.values, p.manifestDepth ≤ deepestManifest := by
    rw [hvalues, List.forall_mem_singleton]
    decide
  obtain ⟨hread, hsame⟩ := ofJson?_toJson sampleCatalog hstorable
  obtain ⟨d, hd⟩ := hread.2 hdepth
  obtain ⟨hfull, -, -, htext⟩ := hsame d hd
  exact ⟨hstorable, hdepth, d, hd, hfull, htext⟩

/-! ### A manifest that is nested too deep -/

/-- A list around a list, and so on. -/
def nested : Nat → Value
  | 0 => .list []
  | n + 1 => .list [nested n]

lemma depth_nested (n : Nat) : (nested n).depth = n + 1 := by
  induction n with
  | zero => rfl
  | succ n ih =>
    rw [nested, Value.depth, Value.depthItems, Value.depthItems, ih]
    rfl

lemma writable_nested (n : Nat) : (nested n).Writable := by
  induction n with
  | zero => exact .list fun _ h => nomatch h
  | succ n ih => exact .list fun v hv => List.mem_singleton.1 hv ▸ ih

lemma canonical_nested (n : Nat) : (nested n).canonical = nested n := by
  induction n with
  | zero => rfl
  | succ n ih =>
    rw [nested, Value.canonical, Value.canonicalItems, Value.canonicalItems, ih]

def deepSale (n : Nat) : Package :=
  { path := ⟨"sale"⟩, name := "sale", manifest := .ofList [("data", nested n)],
    durationSeconds := 0.0 }

lemma values_deepSale (n : Nat) : (deepSale n).manifest.values = [nested n] := rfl

lemma storable_deepSale (n : Nat) : (deepSale n).Storable where
  plain := by
    rw [values_deepSale, List.forall_mem_singleton]
    exact writable_nested n
  canonical := by
    rw [values_deepSale, List.forall_mem_singleton]
    exact canonical_nested n
  models := fun _ h => nomatch h
  classes := fun _ h => nomatch h
  scripts := fun _ h => nomatch h
  files := fun _ h => nomatch h
  language := fun _ h => nomatch h
  duration := roundTrips_zero

lemma manifestDepth_deepSale (n : Nat) : (deepSale n).manifestDepth = n + 2 := by
  change max (nested n).depth 0 + 1 = n + 2
  rw [depth_nested, Nat.max_zero]

/-- A manifest that a text of its own could hold can be too deep for the text of a catalog. -/
theorem not_ofJson?_toJson_of_deepest :
    ¬ ∀ c : Catalog, c.Storable → (∀ p ∈ c.full.values, p.manifestDepth ≤ deepest) →
      ∃ d, ofJson? c.toJson = some d ∧ d.full = c.full := by
  intro h
  have hvalues : (ofPackages [deepSale 124]).full.values = [deepSale 124] := rfl
  have hstorable : (ofPackages [deepSale 124]).Storable := by
    rw [Storable, hvalues, List.forall_mem_singleton]
    exact storable_deepSale 124
  obtain ⟨d, hd, -⟩ := h _ hstorable (by
    rw [hvalues, List.forall_mem_singleton, manifestDepth_deepSale]
    decide)
  have hdeep : ¬(ofPackages [deepSale 124]).value.depth ≤ deepest := by
    rw [hstorable.depth_le_iff, hvalues, List.forall_mem_singleton, manifestDepth_deepSale]
    decide
  rw [hstorable.ofJson?_eq, if_neg hdeep] at hd
  cases hd

end AddonAtlas.Catalog
