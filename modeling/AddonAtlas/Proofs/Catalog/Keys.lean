import AddonAtlas.Proofs.Catalog.Filters
import AddonAtlas.Proofs.Catalog.Saved

/-!
Keys and names of packages.

Discovered packages are filed under their names. A saved text brings its own keys, and nothing
compares them with the names of the packages that it saves under them.
-/

namespace AddonAtlas

namespace Json

variable {α : Type} {decode : Value → Option α} {fields : List (String × Value)}

/-- The field that counts for a key: the last one. -/
def lastField (fields : List (String × Value)) (k : String) : Option Value :=
  (fields.reverse.find? fun f => f.1 == k).map Prod.snd

lemma forall₂_of_mapM {l : List (String × α)}
    (h : fields.mapM (fun f => (decode f.2).map fun x => (f.1, x)) = some l) :
    List.Forall₂ (fun f e => f.1 = e.1 ∧ decode f.2 = some e.2) fields l := by
  induction fields generalizing l with
  | nil =>
    obtain rfl := Option.some.inj h
    exact .nil
  | cons f fields ih =>
    rw [List.mapM_cons] at h
    obtain ⟨e, he, h⟩ := Option.bind_eq_some_iff.1 h
    obtain ⟨r, hr, h⟩ := Option.bind_eq_some_iff.1 h
    obtain ⟨x, hx, rfl⟩ := Option.map_eq_some_iff.1 he
    obtain rfl := Option.some.inj h
    exact .cons ⟨rfl, hx⟩ (ih hr)

lemma find?_of_forall₂ {l : List (String × α)}
    (h : List.Forall₂ (fun f e => f.1 = e.1 ∧ decode f.2 = some e.2) fields l) (k : String) :
    (l.find? fun e => e.1 == k).map Prod.snd =
      ((fields.find? fun f => f.1 == k).map Prod.snd).bind decode := by
  induction h with
  | nil => rfl
  | cons hfe _ ih =>
    obtain ⟨hkey, hdecode⟩ := hfe
    rw [List.find?_cons, List.find?_cons, ← hkey]
    split
    · exact hdecode.symm
    · exact ih

/-- A mapping holds what the fields that count decode to. -/
lemma get?_of_map? {v : Value} {m : NameMap α} (h : map? decode v = some m) :
    ∃ fields, v = .object fields ∧ ∀ k, m.get? k = (lastField fields k).bind decode := by
  cases v with
  | object fields =>
    obtain ⟨l, hl, rfl⟩ := Option.map_eq_some_iff.1 h
    refine ⟨fields, rfl, fun k => ?_⟩
    have hreverse := List.forall₂_reverse_iff.2 (forall₂_of_mapM hl)
    rw [OrdMap.get?_ofList, lastField, find?_of_forall₂ hreverse]
  | null | bool | int | float | text | list => cases h

end Json

namespace Catalog

open Json

variable {c : Catalog} {text : String}

/-- A catalog of a saved text: what the fields that count decode to, with everything selected. -/
lemma exists_fields (h : ofJson? text = some c) :
    ∃ fields, read? text = some (.object fields) ∧
      (∀ n, c.full.get? n = (lastField fields n).bind Package.ofValue?) ∧
      ∀ n ∈ c.selected.toList, ∃ p, c.full.get? n = some p := by
  obtain ⟨full, hfull, rfl⟩ := Option.map_eq_some_iff.1 h
  obtain ⟨v, hread, hmap⟩ := Option.bind_eq_some_iff.1 hfull
  obtain ⟨fields, rfl, hget⟩ := get?_of_map? hmap
  exact ⟨fields, hread, hget, fun n hn => OrdMap.contains_iff_exists.1 (OrdSet.mem_ofKeys.1 hn)⟩

/-- **Keys and names.** In each catalog of discovered packages, whatever filters have run, packages
stand under their own names and selected names are those of packages. In one that is read from a
text selected names are those of packages too, and packages stand under their own names just if the
text saves them so. -/
theorem wellKeyed_iff_saved (l : List Package) (text : String) (fs : List Filter) :
    ((ofPackages l).filters fs).WellKeyed ∧
    ∀ c, ofJson? text = some c →
      (∀ n ∈ (c.filters fs).selected.toList, ∃ p, (c.filters fs).full.get? n = some p) ∧
      ∃ fields, read? text = some (.object fields) ∧
        ((c.filters fs).WellKeyed ↔
          ∀ n v p, lastField fields n = some v → Package.ofValue? v = some p → p.name = n) := by
  refine ⟨wellKeyed_filters_ofPackages l fs, fun c h => ?_⟩
  obtain ⟨fields, hread, hget, hselected⟩ := exists_fields h
  have hkeys : ∀ n ∈ (c.filters fs).selected.toList, ∃ p, (c.filters fs).full.get? n = some p := by
    intro n hn
    rw [full_filters]
    exact hselected n (mem_selected_filters.1 hn).1
  refine ⟨hkeys, fields, hread, fun hkeyed n v p hv hp => ?_,
    fun hnames => ⟨fun {n p} hp => ?_, ?_⟩⟩
  · refine hkeyed.name ?_
    rw [full_filters, hget, hv, Option.bind_some, hp]
  · rw [full_filters, hget] at hp
    obtain ⟨v, hv, hp⟩ := Option.bind_eq_some_iff.1 hp
    exact hnames n v p hv hp
  · exact fun {n} hn => hkeys n hn

/-! ### A package under another name -/

/-- A saved package `b` under the key `a`. -/
def misfiled : Value :=
  .object [("a", .object [("path", .text "b"), ("name", .text "b")])]

/-- A text can save a package under a name that is not its own. -/
theorem not_wellKeyed_ofJson? :
    ¬ ∀ text c, ofJson? text = some c → c.WellKeyed := by
  intro h
  have hwritable : misfiled.Writable := by
    refine .object ?_
    rw [List.forall_mem_singleton]
    refine .object ?_
    simp only [List.forall_mem_cons]
    exact ⟨.text "b", .text "b", fun _ h => nomatch h⟩
  have hread : read? (compact misfiled) = some misfiled := by
    rw [read?_compact hwritable]
    exact if_pos (by decide)
  have hmap : map? Package.ofValue? misfiled =
      some (.ofList [("a", { path := ⟨"b"⟩, name := "b" })]) := rfl
  have hcatalog : ofJson? (compact misfiled) =
      some (ofFull (.ofList [("a", { path := ⟨"b"⟩, name := "b" })])) := by
    rw [ofJson?, hread, Option.bind_some, hmap]
    rfl
  have hname := (h _ _ hcatalog).name (n := "a") (p := { path := ⟨"b"⟩, name := "b" }) rfl
  exact absurd hname (by decide)

end Catalog

end AddonAtlas
