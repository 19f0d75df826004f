import AddonAtlas.Proofs.Catalog.Keys
import AddonAtlas.Proofs.Catalog.ViewLinks
import AddonAtlas.Proofs.Tool.LineReports

/-!
Totals of the views of a catalog.

Views of one key are put together over the selected packages, and the counts of those that have the
name of the first one are added as words. The program stops where a sum is too large for a word,
and it stops just if a whole sum is. Neither a saved catalog nor the report of a line counter has
to keep the sums in range.
-/

namespace AddonAtlas

/-! ## Counts of records -/

namespace Record

/-- What is counted in a record. -/
inductive Count
  | complexity
  | lines
  deriving DecidableEq, Repr

def count (r : Record) : Count → UInt64
  | .complexity => r.complexity
  | .lines => r.lines

/-- No sum is too large for a word when a declaration is merged into a record. One of another name
adds nothing. -/
def AddsTo (d old : Record) : Prop :=
  old.name = d.name → ∀ k, (old.count k).toNat + (d.count k).toNat < 2 ^ 64

lemma addsTo_iff {d old : Record} : d.AddsTo old ↔
    old.name = d.name → old.complexity.toNat + d.complexity.toNat < 2 ^ 64 ∧
      old.lines.toNat + d.lines.toNat < 2 ^ 64 := by
  refine forall_congr' fun _ => ⟨fun h => ⟨h .complexity, h .lines⟩, fun h k => ?_⟩
  cases k with
  | complexity => exact h.1
  | lines => exact h.2

lemma add?_of_lt {a b : UInt64} (h : a.toNat + b.toNat < 2 ^ 64) : Word.add? a b = some (a + b) :=
  if_pos h

/-- Where the program goes on, sums of words are sums. -/
lemma merge?_eq_some_iff {d old r : Record} :
    old.merge? d = some r ↔ d.AddsTo old ∧ old.merge d = r := by
  rw [addsTo_iff, merge?, merge]
  by_cases hname : old.name = d.name
  · simp only [hname, if_true, true_imp_iff, Option.bind_eq_bind]
    by_cases hcomplexity : old.complexity.toNat + d.complexity.toNat < 2 ^ 64
    · rw [add?_of_lt hcomplexity, Option.bind_some]
      by_cases hlines : old.lines.toNat + d.lines.toNat < 2 ^ 64
      · simp only [add?_of_lt hlines, hcomplexity, hlines, Option.bind_some, Option.some.injEq,
          true_and]
      · simp only [Word.add?_eq_none_iff.2 (not_lt.1 hlines), hlines, Option.bind_none,
          reduceCtorEq, and_false, false_and]
    · simp only [Word.add?_eq_none_iff.2 (not_lt.1 hcomplexity), hcomplexity, Option.bind_none,
        reduceCtorEq, false_and]
  · simp [hname]

lemma mergeAt?_eq_some_iff {m m' : NameMap Record} {key : String} {d : Record} :
    mergeAt? m key d = some m' ↔
      (∀ old, m.get? key = some old → d.AddsTo old) ∧ OrdMap.mergeIn merge m (key, d) = m' := by
  rw [mergeAt?, OrdMap.mergeIn]
  cases m.get? key with
  | none => simp
  | some old => simp [merge?_eq_some_iff, and_assoc]

/-- Records can be put together just if none of them adds too much to what those before it make. -/
lemma foldlM_mergeAt?_eq_some_iff {l : List (String × Record)} {m m' : NameMap Record} :
    l.foldlM (fun m e => mergeAt? m e.1 e.2) m = some m' ↔
      (∀ front key d back, l = front ++ (key, d) :: back → ∀ old,
        (front.foldl (OrdMap.mergeIn merge) m).get? key = some old → d.AddsTo old) ∧
        l.foldl (OrdMap.mergeIn merge) m = m' := by
  induction l generalizing m with
  | nil => simp
  | cons e l ih =>
    rw [List.foldlM_cons, Option.bind_eq_bind, Option.bind_eq_some_iff, List.foldl_cons]
    simp only [mergeAt?_eq_some_iff, ih]
    constructor
    · rintro ⟨m₁, ⟨hfirst, rfl⟩, hrest, hm⟩
      refine ⟨fun front key d back hl old hold => ?_, hm⟩
      cases front with
      | nil =>
        obtain ⟨rfl, rfl⟩ := List.cons.inj hl
        exact hfirst old hold
      | cons x front =>
        obtain ⟨rfl, htail⟩ := List.cons.inj hl
        exact hrest front key d back htail old hold
    · rintro ⟨hall, hm⟩
      exact ⟨_, ⟨hall [] e.1 e.2 l rfl, rfl⟩,
        fun front key d back hl => hall (e :: front) key d back (congrArg (e :: ·) hl), hm⟩

/-- While declarations are put together, one of them is merged into what those before it make. -/
def MergesInto (l : List Record) (d old : Record) : Prop :=
  ∃ front back, l = front ++ d :: back ∧ mergeList merge front = some old

/-- What declarations of a name count in all. -/
def countAll (k : Count) (name : String) (l : List Record) : Nat :=
  exactSum ((l.filter fun d => d.name = name).map fun d => d.count k)

variable {d old r : Record} {l : List Record}

lemma count_merge (old d : Record) (k : Count) :
    (old.merge d).count k =
      if old.name = d.name then old.count k + d.count k else old.count k := by
  unfold merge
  split
  · cases k <;> rfl
  · rfl

lemma countAll_concat (k : Count) (name : String) (l : List Record) (d : Record) :
    countAll k name (l ++ [d]) =
      countAll k name l + if name = d.name then (d.count k).toNat else 0 := by
  by_cases h : name = d.name
  · simp [countAll, exactSum, List.filter_append, h]
  · simp [countAll, exactSum, List.filter_append, h, Ne.symm h]

lemma countAll_single (d : Record) (k : Count) : countAll k d.name [d] = (d.count k).toNat := by
  simp [countAll]

/-- The counts of a record are those of the declarations of its name, up to multiples of the range.
-/
lemma toNat_count_mergeList (h : mergeList merge l = some r) (k : Count) :
    (r.count k).toNat = countAll k r.name l % 2 ^ 64 := by
  refine mergeList_induction (P := fun l r => (r.count k).toNat = countAll k r.name l % 2 ^ 64)
    (fun d _ => ?_) (fun l' old d _ hold => ?_) h
  · rw [countAll_single, Nat.mod_eq_of_lt (d.count k).toNat_lt]
  · rw [name_merge, countAll_concat, count_merge]
    split
    · rw [UInt64.toNat_add, hold, Nat.mod_add_mod]
    · exact hold

/-- A further declaration keeps the counts in range just if merging it in adds in range. -/
lemma addsTo_iff_concat (hold : mergeList merge l = some old) (d : Record) :
    (∀ k, countAll k old.name l < 2 ^ 64) ∧ d.AddsTo old ↔
      ∀ k, countAll k old.name (l ++ [d]) < 2 ^ 64 := by
  have hcount (k : Count) := toNat_count_mergeList hold k
  simp only [countAll_concat]
  by_cases hname : old.name = d.name
  · simp only [if_pos hname]
    constructor
    · rintro ⟨hall, hadds⟩ k
      have hlast := hadds hname k
      rwa [hcount, Nat.mod_eq_of_lt (hall k)] at hlast
    · intro h
      have hall (k : Count) : countAll k old.name l < 2 ^ 64 := by
        have hk := h k
        omega
      refine ⟨hall, fun _ k => ?_⟩
      rw [hcount, Nat.mod_eq_of_lt (hall k)]
      exact h k
  · simp [AddsTo, hname]

lemma mergesInto_concat {x : Record} :
    MergesInto (l ++ [x]) d old ↔ MergesInto l d old ∨ mergeList merge l = some old ∧ x = d := by
  constructor
  · rintro ⟨front, back, hl, hold⟩
    rcases List.eq_nil_or_concat back with rfl | ⟨back, y, rfl⟩
    · obtain ⟨rfl, rfl⟩ : l = front ∧ x = d := by simpa using List.append_inj' hl rfl
      exact .inr ⟨hold, rfl⟩
    · rw [List.concat_eq_append, ← List.cons_append, ← List.append_assoc] at hl
      exact .inl ⟨front, back, (List.append_inj' hl rfl).1, hold⟩
  · rintro (⟨front, back, rfl, hold⟩ | ⟨hold, rfl⟩)
    · exact ⟨front, back ++ [x], by simp, hold⟩
    · exact ⟨l, [], rfl, hold⟩

/-- Sums only grow, so all of them are in range just if those over all declarations are. -/
lemma forall_addsTo_iff : (∀ d old, MergesInto l d old → d.AddsTo old) ↔
    ∀ r, mergeList merge l = some r → ∀ k, countAll k r.name l < 2 ^ 64 := by
  induction l using List.reverseRecOn with
  | nil => simp [MergesInto, mergeList]
  | append_singleton l x ih =>
    have hsteps : (∀ d old, MergesInto (l ++ [x]) d old → d.AddsTo old) ↔
        (∀ d old, MergesInto l d old → d.AddsTo old) ∧
          ∀ old, mergeList merge l = some old → x.AddsTo old := by
      simp only [mergesInto_concat]
      constructor
      · exact fun h =>
          ⟨fun d old hd => h d old (.inl hd), fun old hold => h x old (.inr ⟨hold, rfl⟩)⟩
      · rintro ⟨hbefore, hlast⟩ d old (hd | ⟨hold, rfl⟩)
        · exact hbefore d old hd
        · exact hlast old hold
    rw [hsteps, ih, mergeList_concat]
    cases hold : mergeList merge l with
    | none =>
      obtain rfl := mergeList_eq_none_iff.1 hold
      have hsingle (k : Count) : (x.count k).toNat < 2 ^ 64 := (x.count k).toNat_lt
      simpa [countAll_single] using hsingle
    | some old =>
      simp only [Option.some.injEq, forall_eq', Option.elim_some, name_merge]
      exact addsTo_iff_concat hold x

end Record

/-! ## Views of a catalog -/

namespace Catalog

open Record Tool LineReport

variable {c : Catalog} {d old r : Record} {key : String}

/-- The views of the selected packages in the order in which they are put together. -/
def viewEntries (c : Catalog) : List (String × Record) :=
  c.packages.flatMap fun p => p.views.entries

/-- While views are put together, one of them is merged into what stands under its key. -/
def MergesView (c : Catalog) (d old : Record) : Prop :=
  ∃ front key back, c.viewEntries = front ++ (key, d) :: back ∧
    (front.foldl (OrdMap.mergeIn Record.merge) .empty).get? key = some old

lemma views?_eq_some_iff {m : NameMap Record} :
    c.views? = some m ↔ (∀ d old, c.MergesView d old → d.AddsTo old) ∧ c.views = m := by
  have hsteps : (∀ front key d back, c.viewEntries = front ++ (key, d) :: back → ∀ old,
      (front.foldl (OrdMap.mergeIn Record.merge) .empty).get? key = some old → d.AddsTo old) ↔
        ∀ d old, c.MergesView d old → d.AddsTo old :=
    ⟨fun h d old ⟨front, key, back, hl, hold⟩ => h front key d back hl old hold,
      fun h front key d back hl old hold => h d old ⟨front, key, back, hl, hold⟩⟩
  rw [views_eq_gather, ← hsteps]
  exact Record.foldlM_mergeAt?_eq_some_iff

lemma valuesAt_viewEntries (c : Catalog) (key : String) :
    OrdMap.valuesAt key c.viewEntries = c.viewPieces key := OrdMap.valuesAt_flatMap _ _ key

lemma mergesView_iff : c.MergesView d old ↔ ∃ key, MergesInto (c.viewPieces key) d old := by
  have hget (front : List (String × Record)) (key : String) :
      (front.foldl (OrdMap.mergeIn Record.merge) .empty).get? key =
        mergeList Record.merge (OrdMap.valuesAt key front) := by
    rw [OrdMap.get?_foldl_mergeIn, OrdMap.get?_empty]
    rfl
  simp only [MergesView, MergesInto, hget, ← valuesAt_viewEntries, OrdMap.valuesAt_eq_append_cons]
  constructor
  · rintro ⟨front, key, back, hentries, hold⟩
    exact ⟨key, _, _, ⟨front, back, hentries, rfl, rfl⟩, hold⟩
  · rintro ⟨key, _, _, ⟨front, back, hentries, rfl, rfl⟩, hold⟩
    exact ⟨front, key, back, hentries, hold⟩

/-- Views can be put together just if under each key the whole sums are words. -/
lemma views?_eq_none_iff : c.views? = none ↔
    ∃ key r k, c.views.get? key = some r ∧ 2 ^ 64 ≤ countAll k r.name (c.viewPieces key) := by
  have hinRange : (∀ d old, c.MergesView d old → d.AddsTo old) ↔
      ∀ key r, c.views.get? key = some r → ∀ k, countAll k r.name (c.viewPieces key) < 2 ^ 64 := by
    simp only [mergesView_iff, get?_views, ← Record.forall_addsTo_iff]
    exact ⟨fun h key d old hd => h d old ⟨key, hd⟩, fun h d old ⟨key, hd⟩ => h key d old hd⟩
  rw [Option.eq_none_iff_forall_ne_some]
  simp only [Ne, views?_eq_some_iff, hinRange, not_and]
  constructor
  · intro h
    by_contra hnone
    push Not at hnone
    exact h _ (fun key r hr k => hnone key r k hr) rfl
  · rintro ⟨key, r, k, hr, hlarge⟩ m hall
    exact absurd (hall key r hr k) (not_lt.2 hlarge)

/-- **Totals.** The program stops while it puts the views of a catalog together just if under some
key the counts of the views of the first one's name are too large in sum for a word; otherwise each
view counts these sums. Likewise it stops at a line report just if its counts are too large in sum;
otherwise their sum is the total that shares are taken from, and no language has more lines. -/
theorem totals_inRange_iff (c : Catalog) (report : String) :
    (c.views? = none ↔ ∃ key r k, c.views.get? key = some r ∧
      2 ^ 64 ≤ countAll k r.name (c.viewPieces key)) ∧
    (∀ views, c.views? = some views → views = c.views ∧ ∀ key r, views.get? key = some r →
      ∀ k, (r.count k).toNat = countAll k r.name (c.viewPieces key)) ∧
    (read? report = none ↔ 2 ^ 64 ≤ exactSum (counts report).values) ∧
    ∀ shares, read? report = some shares → ∃ total : UInt64,
      total.toNat = exactSum (counts report).values ∧
      shares = (counts report).mapValues (fun _ n => share total n) ∧
      ∀ language s, shares.get? language = some s → s.lines ≤ total := by
  refine ⟨views?_eq_none_iff, fun views hviews => ?_, read?_eq_none_iff, fun shares hshares => ?_⟩
  · obtain rfl := (views?_eq_some_iff.1 hviews).2
    refine ⟨rfl, fun key r hr k => ?_⟩
    have hlt : countAll k r.name (c.viewPieces key) < 2 ^ 64 := by
      by_contra hlarge
      rw [views?_eq_none_iff.2 ⟨key, r, k, hr, not_lt.1 hlarge⟩] at hviews
      cases hviews
    rw [get?_views] at hr
    rw [toNat_count_mergeList hr k, Nat.mod_eq_of_lt hlt]
  · obtain ⟨total, htotal, rfl⟩ := read?_eq_some_iff.1 hshares
    refine ⟨total, htotal, rfl, fun language s hs => ?_⟩
    rw [OrdMap.get?_mapValues, Option.map_eq_some_iff] at hs
    obtain ⟨n, hn, rfl⟩ := hs
    exact le_total htotal (OrdMap.mem_values_iff.2 ⟨language, hn⟩)

/-! ### Counts that are too large in sum -/

/-- A saved package with a form of some complexity. -/
def complexForm (name : String) (complexity : Int) : Value :=
  .object [("path", .text name), ("name", .text name),
    ("views",
      .object [("form", .object [("name", .text "form"), ("complexity", .int complexity)])])]

/-- Two saved packages with one form, which is as complex as can be in one of them. -/
def complexForms : Value :=
  .object [("sale", complexForm "sale" 18446744073709551615), ("shop", complexForm "shop" 1)]

/-- A report of two languages with as many lines as can be. -/
def longReport : String := "A 1 1 1 18446744073709551615\nB 1 1 1 18446744073709551615\n"

def formWith (complexity : UInt64) : Record := { name := "form", complexity := complexity }

/-- The package that is saved so. -/
def packageWith (name : String) (complexity : UInt64) : Package where
  path := ⟨name⟩
  name := name
  views := .ofList [("form", formWith complexity)]

lemma writable_complexForm (name : String) {n : Int} (h : Json.IsWord n) :
    (complexForm name n).Writable := by
  have hrecord : (Value.object [("name", .text "form"), ("complexity", .int n)]).Writable := by
    refine .object ?_
    simp only [List.forall_mem_cons]
    exact ⟨.text "form", .int h, fun _ h => nomatch h⟩
  refine .object ?_
  simp only [List.forall_mem_cons]
  refine ⟨.text name, .text name, .object ?_, fun _ h => nomatch h⟩
  rw [List.forall_mem_singleton]
  exact hrecord

lemma ofJson?_complexForms : ofJson? (Json.compact complexForms) = some (ofFull (.ofList
    [("sale", packageWith "sale" 18446744073709551615), ("shop", packageWith "shop" 1)])) := by
  have hwritable : complexForms.Writable := by
    refine .object ?_
    simp only [List.forall_mem_cons]
    exact ⟨writable_complexForm "sale" ⟨by decide, by decide⟩,
      writable_complexForm "shop" ⟨by decide, by decide⟩, fun _ h => nomatch h⟩
  have hread : Json.read? (Json.compact complexForms) = some complexForms := by
    rw [Json.read?_compact hwritable]
    exact if_pos (by decide)
  have hmap : Json.map? Package.ofValue? complexForms = some (.ofList
      [("sale", packageWith "sale" 18446744073709551615), ("shop", packageWith "shop" 1)]) := rfl
  rw [ofJson?, hread, Option.bind_some, hmap]
  rfl

/-- It is not so that the program goes on with every catalog that is read from a text, nor with
every line report. -/
theorem not_totals_inRange :
    (¬ ∀ text c, ofJson? text = some c → (c.views?).isSome = true) ∧
    ¬ ∀ report, (read? report).isSome = true := by
  constructor
  · intro h
    exact absurd (h _ _ ofJson?_complexForms) (by decide)
  · intro h
    have hlarge : 2 ^ 64 ≤ exactSum (counts longReport).values := by decide +kernel
    have hsome := h longReport
    rw [read?_eq_none_iff.2 hlarge] at hsome
    cases hsome

end Catalog

end AddonAtlas
