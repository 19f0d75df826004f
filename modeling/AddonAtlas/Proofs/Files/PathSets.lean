import AddonAtlas.Files.Path
import AddonAtlas.Proofs.Ordered.Lookup
import Mathlib.Tactic.Tauto

/-!
Membership in sets of paths: all spellings of a path count.
-/

namespace AddonAtlas.PathSet

open AddonAtlas.Path

variable {files : PathSet} {f g : Path} {l : List Path}

lemma contains_congr (files : PathSet) (h : f.key = g.key) :
    files.contains f = files.contains g := by
  rw [contains, contains, h]

lemma contains_insert :
    (files.insert f).contains g = true ↔ g.key = f.key ∨ files.contains g = true := by
  unfold insert contains OrdMap.insertIfNew
  cases hf : OrdMap.contains files f.key with
  | true =>
    simp only [if_true]
    constructor
    · exact .inr
    · rintro (h | h)
      · rw [h, hf]
      · exact h
  | false =>
    simp only [Bool.false_eq_true, if_false, OrdMap.contains, OrdMap.get?_insert]
    split <;> simp_all

@[simp] lemma contains_empty : PathSet.contains OrdMap.empty f = false := rfl

lemma contains_insertMany :
    (files.insertMany l).contains g = true ↔ g.key ∈ l.map key ∨ files.contains g = true := by
  induction l generalizing files with
  | nil => simp [insertMany]
  | cons a r ih =>
    have h : ((files.insert a).insertMany r).contains g = true ↔ _ := ih
    rw [insertMany] at h
    rw [insertMany, List.foldl_cons, h, contains_insert, List.map_cons, List.mem_cons]
    tauto

/-- Each path stands under its own key. -/
def Keyed (s : PathSet) : Prop := ∀ e ∈ s.entries, e.2.key = e.1

lemma keyed_empty : Keyed OrdMap.empty := by simp [Keyed, OrdMap.empty]

lemma Keyed.insert (h : files.Keyed) (f : Path) : (files.insert f).Keyed := by
  unfold PathSet.insert OrdMap.insertIfNew
  split
  · exact h
  · intro e he
    have hget := OrdMap.get?_eq_some_iff.2 he
    rw [OrdMap.get?_insert] at hget
    split at hget
    · rename_i hkey
      rw [← Option.some.inj hget, hkey]
    · exact h e (OrdMap.get?_eq_some_iff.1 hget)

lemma Keyed.insertMany (h : files.Keyed) (l : List Path) : (files.insertMany l).Keyed := by
  induction l generalizing files with
  | nil => exact h
  | cons f l ih => exact ih (h.insert f)

lemma Keyed.mem_paths (h : files.Keyed) (hf : files.contains f = true) :
    f.key ∈ files.paths.map key := by
  obtain ⟨g, hg⟩ := OrdMap.contains_iff_exists.1 hf
  have hkey : g.key = f.key := h _ (OrdMap.get?_eq_some_iff.1 hg)
  exact List.mem_map.2 ⟨g, OrdMap.mem_values_iff.2 ⟨_, hg⟩, hkey⟩

/-- The paths of a set in order give the set back. -/
lemma ofList_paths (h : files.Keyed) : ofList files.paths = files := by
  have hlist (l : List (List String × Path)) (hkey : ∀ e ∈ l, e.2.key = e.1)
      (hnodup : (l.map Prod.fst).Nodup) : ofList (l.map Prod.snd) = OrdMap.ofList l := by
    induction l using List.reverseRecOn with
    | nil => rfl
    | append_singleton l e ih =>
      rw [List.map_append, List.nodup_append] at hnodup
      have hl := ih (fun f hf => hkey f (List.mem_append_left _ hf)) hnodup.1
      have hnew : OrdMap.contains (OrdMap.ofList l) e.1 = false := by
        rw [Bool.eq_false_iff, Ne, OrdMap.contains_iff_mem_keys, OrdMap.mem_keys_ofList]
        rintro ⟨v, hv⟩
        have hmem : e.1 ∈ l.map Prod.fst := List.mem_map.2 ⟨(e.1, v), hv, rfl⟩
        exact hnodup.2.2 e.1 hmem e.1 (List.mem_singleton_self _) rfl
      have hstep : ofList (l.map Prod.snd ++ [e.2]) = (ofList (l.map Prod.snd)).insert e.2 := by
        simp [ofList, insertMany]
      rw [List.map_append, List.map_singleton, hstep, hl, OrdMap.ofList_concat, insert,
        OrdMap.insertIfNew, hkey e (by simp), hnew]
      rfl
  refine (hlist files.entries h ?_).trans (OrdMap.ofList_entries files)
  refine List.pairwise_map.2 (files.ordered.imp fun {e f} hlt heq => ?_)
  rw [heq, Std.ReflOrd.compare_self] at hlt
  cases hlt

/-! ## Unions -/

variable {s t u : PathSet} {k : List String}

/-- Of the paths with a key the first one put in stays. -/
lemma get?_insertMany (s : PathSet) (l : List Path) (k : List String) :
    OrdMap.get? (s.insertMany l) k = (OrdMap.get? s k).or (l.find? fun f => f.key = k) := by
  induction l generalizing s with
  | nil => simp [insertMany]
  | cons f l ih =>
    have hinsert : OrdMap.get? (s.insert f) k =
        (OrdMap.get? s k).or (if f.key = k then some f else none) := by
      unfold insert OrdMap.insertIfNew
      cases hs : OrdMap.get? s f.key with
      | none =>
        rw [if_neg (by simp [OrdMap.contains, hs]), OrdMap.get?_insert]
        by_cases hk : f.key = k
        · rw [if_pos hk.symm, if_pos hk, ← hk, hs, Option.none_or]
        · rw [if_neg (Ne.symm hk), if_neg hk, Option.or_none]
      | some g =>
        rw [if_pos (by simp [OrdMap.contains, hs])]
        by_cases hk : f.key = k
        · rw [← hk, hs, Option.some_or]
        · rw [if_neg hk, Option.or_none]
    have hstep : s.insertMany (f :: l) = (s.insert f).insertMany l := rfl
    rw [hstep, ih, hinsert, Option.or_assoc, List.find?_cons]
    by_cases hk : f.key = k <;> simp [hk]

lemma Keyed.find?_values (h : files.Keyed) (k : List String) :
    files.values.find? (fun f => f.key = k) = OrdMap.get? files k := by
  have hfound {f : Path} (hf : files.values.find? (fun f => f.key = k) = some f) :
      OrdMap.get? files k = some f := by
    obtain ⟨j, hj⟩ := OrdMap.mem_values_iff.1 (List.mem_of_find?_eq_some hf)
    have hk : f.key = k := by simpa using List.find?_some hf
    have hkey : f.key = j := h _ (OrdMap.get?_eq_some_iff.1 hj)
    rw [← hk, hkey, hj]
  cases hf : files.values.find? fun f => f.key = k with
  | some f => exact (hfound hf).symm
  | none =>
    refine (Option.eq_none_iff_forall_ne_some.2 fun f hget => ?_).symm
    have hk : f.key = k := h _ (OrdMap.get?_eq_some_iff.1 hget)
    have hne := List.find?_eq_none.1 hf f (OrdMap.mem_values_iff.2 ⟨k, hget⟩)
    exact hne (decide_eq_true hk)

/-- Of two spellings that sets have of a path, a union keeps that of the first set. -/
lemma Keyed.get?_union (ht : t.Keyed) (s : PathSet) (k : List String) :
    OrdMap.get? (PathSet.union s t) k = (OrdMap.get? s k).or (OrdMap.get? t k) := by
  rw [union, get?_insertMany, ht.find?_values]

lemma Keyed.union (hs : s.Keyed) (t : PathSet) : (PathSet.union s t).Keyed := hs.insertMany t.values

lemma Keyed.contains_union (ht : t.Keyed) {s : PathSet} :
    (PathSet.union s t).contains f = true ↔ s.contains f = true ∨ t.contains f = true := by
  rw [contains, contains, contains, OrdMap.contains, OrdMap.contains, OrdMap.contains,
    ht.get?_union, Option.isSome_or, Bool.or_eq_true]

lemma Keyed.union_assoc (ht : t.Keyed) (hu : u.Keyed) (s : PathSet) :
    PathSet.union (PathSet.union s t) u = PathSet.union s (PathSet.union t u) :=
  OrdMap.ext_get? fun k => by
    rw [hu.get?_union, ht.get?_union, (ht.union u).get?_union, hu.get?_union, Option.or_assoc]

lemma Keyed.union_self (hs : s.Keyed) : PathSet.union s s = s := OrdMap.ext_get? fun k => by
  rw [hs.get?_union, Option.or_self]

end AddonAtlas.PathSet
