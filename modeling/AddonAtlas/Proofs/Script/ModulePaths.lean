import AddonAtlas.Script.ModulePath
import Mathlib.Algebra.Order.Group.Nat
import Mathlib.Data.List.TakeWhile

/-!
Scripts that share a name.

Below a static tree a script is named by its package and its place in the tree, without the name of
an index and without its extension. So up to three places of a tree have one name. A place outside
static trees stands for itself.
-/

namespace AddonAtlas.Script

open Text

/-- What stands in a name between the package and the place. -/
def StaticTree.gap : StaticTree → String
  | .sources => ""
  | .tests => "/../tests"

/-- The places of scripts that a stem stands for. -/
inductive Spells (stem : List Char) : List Char → Prop
  | script : ¬ "/index".toList <:+ stem → Spells stem (stem ++ ".js".toList)
  | index : ¬ ".js".toList <:+ stem → Spells stem (stem ++ "/index.js".toList)
  | scriptIndex : Spells stem (stem ++ ".js/index.js".toList)

/-- The names of scripts by their addresses. -/
inductive Names : String → String → Prop
  | outside {address} : address? address.toList = none → Names address address
  | inside {address package t place stem} :
      address? address.toList = some (package, t, place) → Spells stem place →
      Names ("@" ++ String.ofList package ++ t.gap ++ String.ofList stem) address

/-- An address of a script: it has no blanks and ends in the extension of scripts. -/
structure IsAddress (address : String) : Prop where
  blankless : ∀ c ∈ address.toList, isBlank c = false
  script : ".js".toList <:+ address.toList

variable {cs before place stem package : List Char} {t : StaticTree}

/-! ## Static trees -/

lemma treeAt?_eq_some (h : treeAt? cs = some (t, place)) :
    cs = t.directory.toList ++ place ∧ ∃ r, place = '/' :: r := by
  obtain ⟨u, -, hu⟩ := List.exists_of_findSome?_eq_some h
  split at hu
  · rename_i hprefix
    obtain ⟨rfl, rfl⟩ := Prod.mk.inj (Option.some.inj hu)
    obtain ⟨r, rfl⟩ := List.isPrefixOf_iff_prefix.1 hprefix
    rw [String.toList_append, List.append_assoc, ← String.length_toList, List.drop_left]
    exact ⟨rfl, r, rfl⟩
  · cases hu

lemma lastTree?_eq_some (h : lastTree? cs = some (before, t, place)) :
    cs = before ++ t.directory.toList ++ place ∧ ∃ r, place = '/' :: r := by
  induction cs generalizing before with
  | nil => cases h
  | cons c cs ih =>
    rw [lastTree?] at h
    split at h
    · rename_i x u y hrest
      obtain ⟨rfl, hsame⟩ := Prod.mk.inj (Option.some.inj h)
      obtain ⟨rfl, rfl⟩ := Prod.mk.inj hsame
      obtain ⟨hcs, hplace⟩ := ih hrest
      exact ⟨by rw [hcs]; rfl, hplace⟩
    · obtain ⟨⟨u, y⟩, htree, htail⟩ := Option.map_eq_some_iff.1 h
      obtain ⟨rfl, hrest⟩ := Prod.mk.inj htail
      obtain ⟨rfl, rfl⟩ := Prod.mk.inj hrest
      exact treeAt?_eq_some htree

lemma split?_eq_some (h : split? cs = some (before, t, place)) :
    cs = before ++ t.directory.toList ++ place ∧ before ≠ [] ∧ ∃ r, place = '/' :: r := by
  cases cs with
  | nil => cases h
  | cons c cs =>
    obtain ⟨⟨x, u, y⟩, hlast, htail⟩ := Option.map_eq_some_iff.1 h
    obtain ⟨rfl, hrest⟩ := Prod.mk.inj htail
    obtain ⟨rfl, rfl⟩ := Prod.mk.inj hrest
    obtain ⟨hcs, hplace⟩ := lastTree?_eq_some hlast
    exact ⟨by rw [hcs]; rfl, by simp, hplace⟩

/-- An address that is split is a package, a static tree and a place in it, perhaps behind a
slash. -/
lemma address?_eq_some (h : address? cs = some (package, t, place)) :
    (∃ slash, cs = slash ++ package ++ t.directory.toList ++ place ∧ slash ∈ [[], ['/']]) ∧
      package ≠ [] ∧ ∃ r, place = '/' :: r := by
  have hwhole {cs : List Char} (h : split? cs = some (package, t, place)) :
      (∃ slash, cs = slash ++ package ++ t.directory.toList ++ place ∧ slash ∈ [[], ['/']]) ∧
        package ≠ [] ∧ ∃ r, place = '/' :: r := by
    obtain ⟨hcs, hrest⟩ := split?_eq_some h
    exact ⟨⟨[], hcs, by simp⟩, hrest⟩
  unfold address? at h
  split at h
  · rename_i r
    rcases Option.or_eq_some_iff.1 h with h | ⟨-, h⟩
    · obtain ⟨hcs, hrest⟩ := split?_eq_some h
      exact ⟨⟨['/'], by rw [hcs]; rfl, by simp⟩, hrest⟩
    · exact hwhole h
  · exact hwhole h

/-- The place of a script ends in its extension. -/
lemma script_of_address? (h : address? cs = some (package, t, place))
    (hscript : ".js".toList <:+ cs) : ".js".toList <:+ place := by
  obtain ⟨⟨slash, rfl, -⟩, -, r, rfl⟩ := address?_eq_some h
  rcases List.suffix_or_suffix_of_suffix hscript (List.suffix_append _ ('/' :: r)) with h | h
  · exact h
  · exact absurd (h.subset List.mem_cons_self) (by decide)

/-! ## Places -/

lemma endsWith_iff {tail : String} : endsWith cs tail = true ↔ tail.toList <:+ cs :=
  List.isSuffixOf_iff_suffix

lemma append_suffix_append {l r : List Char} : l ++ r <:+ cs ++ r ↔ l <:+ cs := by
  simp [List.IsSuffix, ← List.append_assoc]

lemma withoutLast_append {name : List Char} (hname : '/' ∉ name) (r : List Char) :
    withoutLast (r ++ '/' :: name) = r := by
  have hdrop : (name.reverse ++ '/' :: r.reverse).dropWhile (· ≠ '/') = '/' :: r.reverse := by
    rw [List.dropWhile_append_of_pos]
    · simp
    · intro c hc
      simpa using fun h : c = '/' => hname (h ▸ List.mem_reverse.1 hc)
  rw [withoutLast, List.reverse_append, List.reverse_cons, List.append_assoc, List.singleton_append,
    hdrop, List.drop_one, List.tail_cons, List.reverse_reverse]

lemma modulePlace_index (r : List Char) : modulePlace (r ++ "/index.js".toList) =
    if ".js".toList <:+ r then r.take (r.length - 3) else r := by
  have hends : endsWith (r ++ "/index.js".toList) "/index.js" = true :=
    endsWith_iff.2 (List.suffix_append r _)
  have hlast : withoutLast (r ++ "/index.js".toList) = r := withoutLast_append (by decide) r
  simp only [modulePlace, hends, Bool.true_or, if_true, hlast, endsWith_iff]

lemma modulePlace_script (h : ¬ "/index".toList <:+ stem) :
    modulePlace (stem ++ ".js".toList) = stem := by
  have hindex : endsWith (stem ++ ".js".toList) "/index.js" = false := by
    rw [← Bool.not_eq_true, endsWith_iff]
    exact fun hsuffix => h (append_suffix_append.1 hsuffix)
  have hplain : endsWith (stem ++ ".js".toList) "/index" = false := by
    rw [← Bool.not_eq_true, endsWith_iff]
    rintro ⟨r, hr⟩
    have hlast := congrArg List.getLast? hr
    simp at hlast
  have hscript : endsWith (stem ++ ".js".toList) ".js" = true :=
    endsWith_iff.2 (List.suffix_append stem _)
  simp only [modulePlace, hindex, hplain, Bool.or_self, Bool.false_eq_true, if_false, hscript,
    if_true]
  simp

/-- A stem is what the place of a script keeps just if it spells the place. -/
lemma modulePlace_eq_iff (hscript : ".js".toList <:+ place) :
    modulePlace place = stem ↔ Spells stem place := by
  constructor
  · rintro rfl
    obtain ⟨x, rfl⟩ := hscript
    by_cases hindex : "/index".toList <:+ x
    · obtain ⟨r, rfl⟩ := hindex
      have hplace : r ++ "/index".toList ++ ".js".toList = r ++ "/index.js".toList :=
        List.append_assoc _ _ _
      rw [hplace, modulePlace_index]
      split
      · rename_i hr
        obtain ⟨y, rfl⟩ := hr
        have htake : (y ++ ".js".toList).take ((y ++ ".js".toList).length - 3) = y := by simp
        rw [htake, List.append_assoc]
        exact .scriptIndex
      · rename_i hr
        exact .index hr
    · rw [modulePlace_script hindex]
      exact .script hindex
  · intro h
    cases h with
    | script h => exact modulePlace_script h
    | index h => rw [modulePlace_index, if_neg h]
    | scriptIndex =>
      have hplace : stem ++ ".js/index.js".toList = stem ++ ".js".toList ++ "/index.js".toList := by
        rw [List.append_assoc]
        rfl
      rw [hplace, modulePlace_index, if_pos (List.suffix_append _ _)]
      simp

/-! ## Names -/

lemma takeWhile_of_isAddress {address : String} (h : IsAddress address) :
    address.toList.takeWhile (fun c => !isBlank c) = address.toList :=
  List.takeWhile_eq_self_iff.2 fun c hc => by simp [h.blankless c hc]

lemma modulePath_of_outside {address : String} (h : IsAddress address)
    (houtside : address? address.toList = none) : modulePath address = address := by
  simp only [modulePath, takeWhile_of_isAddress h, houtside]

lemma modulePath_of_inside {address : String} (h : IsAddress address)
    (hinside : address? address.toList = some (package, t, place)) :
    modulePath address =
      "@" ++ String.ofList package ++ t.gap ++ String.ofList (modulePlace place) := by
  simp only [modulePath, takeWhile_of_isAddress h, hinside]
  cases t <;> rfl

/-- Module paths are the names of scripts. -/
lemma modulePath_eq_iff_names {address name : String} (h : IsAddress address) :
    modulePath address = name ↔ Names name address := by
  constructor
  · rintro rfl
    cases hsplit : address? address.toList with
    | none =>
      rw [modulePath_of_outside h hsplit]
      exact .outside hsplit
    | some x =>
      obtain ⟨package, t, place⟩ := x
      rw [modulePath_of_inside h hsplit]
      exact .inside hsplit ((modulePlace_eq_iff (script_of_address? hsplit h.script)).1 rfl)
  · rintro (houtside | ⟨hinside, hspells⟩)
    · exact modulePath_of_outside h houtside
    · rw [modulePath_of_inside h hinside,
        (modulePlace_eq_iff (script_of_address? hinside h.script)).2 hspells]

/-- Two scripts share a module path just if one name stands for both of their addresses. -/
lemma modulePath_eq_modulePath_iff {a b : String} (ha : IsAddress a) (hb : IsAddress b) :
    modulePath a = modulePath b ↔ ∃ name, Names name a ∧ Names name b := by
  constructor
  · intro h
    exact ⟨_, (modulePath_eq_iff_names ha).1 rfl, (modulePath_eq_iff_names hb).1 h.symm⟩
  · rintro ⟨name, hname, hname'⟩
    rw [(modulePath_eq_iff_names ha).2 hname, (modulePath_eq_iff_names hb).2 hname']

/-- In one static tree it is the stem of their places that two scripts must share. -/
lemma modulePath_eq_iff_of_inside {a b : String} {x y : List Char} (ha : IsAddress a)
    (hb : IsAddress b) (hx : address? a.toList = some (package, t, x))
    (hy : address? b.toList = some (package, t, y)) :
    modulePath a = modulePath b ↔ ∃ stem, Spells stem x ∧ Spells stem y := by
  have hplace : modulePlace y = modulePlace x ↔ Spells (modulePlace x) y :=
    modulePlace_eq_iff (script_of_address? hy hb.script)
  rw [modulePath_of_inside ha hx, modulePath_of_inside hb hy, String.append_right_inj,
    String.ofList_inj, eq_comm, hplace]
  constructor
  · intro h
    exact ⟨_, (modulePlace_eq_iff (script_of_address? hx ha.script)).1 rfl, h⟩
  · rintro ⟨stem, hstem, hstem'⟩
    rwa [(modulePlace_eq_iff (script_of_address? hx ha.script)).2 hstem]

end AddonAtlas.Script
