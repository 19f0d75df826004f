import AddonAtlas.Ordered.Set
import Mathlib.Data.List.Induction
import Mathlib.Data.List.Sort
import Mathlib.Tactic.Lemma

/-!
Look-ups in ordered maps, read as membership in their entries.
-/

namespace AddonAtlas

/-- Lists in strictly increasing order with the same elements are one list. -/
lemma eq_of_ordered {κ : Type u} {α : Type v} [Ord κ] [Std.TransOrd κ] (f : α → κ) {l m : List α}
    (hl : l.Pairwise fun a b => compare (f a) (f b) = .lt)
    (hm : m.Pairwise fun a b => compare (f a) (f b) = .lt) (h : ∀ a, a ∈ l ↔ a ∈ m) : l = m := by
  have : Std.Antisymm fun a b : α => compare (f a) (f b) = .lt := ⟨fun a b hab hba => by
    rw [Std.OrientedCmp.gt_of_lt hba] at hab
    cases hab⟩
  have : Std.Irrefl fun a b : α => compare (f a) (f b) = .lt :=
    ⟨fun a ha => by simp [Std.ReflCmp.compare_self] at ha⟩
  exact hl.eq_of_mem_iff hm h

namespace OrdMap

variable {κ : Type u} {α : Type v} {β : Type w} [Ord κ]

lemma contains_iff_exists {m : OrdMap κ α} {k : κ} :
    m.contains k = true ↔ ∃ v, m.get? k = some v := Option.isSome_iff_exists

variable [Std.LawfulEqOrd κ]

lemma find_eq_some_iff {k : κ} {v : α} {l : List (κ × α)}
    (h : l.Pairwise fun a b => compare a.1 b.1 = .lt) : find k l = some v ↔ (k, v) ∈ l := by
  induction l with
  | nil => simp [find]
  | cons a r ih =>
    obtain ⟨j, w⟩ := a
    obtain ⟨hj, hr⟩ := List.pairwise_cons.1 h
    rw [List.mem_cons]
    by_cases hkj : k = j
    · subst hkj
      -- a later entry with this key would stand after itself
      have hlater : (k, v) ∉ r := fun hv => by
        have := hj _ hv
        simp [Std.ReflCmp.compare_self] at this
      simp [find, Std.ReflCmp.compare_self, hlater, eq_comm]
    · have hc : compare k j ≠ .eq := fun hc => hkj (Std.LawfulEqOrd.eq_of_compare hc)
      rw [find_cons_of_ne hc, ih hr]
      simp [hkj]

lemma get?_eq_some_iff {m : OrdMap κ α} {k : κ} {v : α} :
    m.get? k = some v ↔ (k, v) ∈ m.entries := find_eq_some_iff m.ordered

lemma mem_keys_iff {m : OrdMap κ α} {k : κ} : k ∈ m.keys ↔ ∃ v, m.get? k = some v := by
  simp [keys, get?_eq_some_iff]

lemma contains_iff_mem_keys {m : OrdMap κ α} {k : κ} : m.contains k = true ↔ k ∈ m.keys := by
  rw [contains_iff_exists, mem_keys_iff]

lemma mem_values_iff {m : OrdMap κ α} {v : α} : v ∈ m.values ↔ ∃ k, m.get? k = some v := by
  simp [values, get?_eq_some_iff]

@[simp] lemma get?_mapValues (m : OrdMap κ α) (f : κ → α → β) (k : κ) :
    (m.mapValues f).get? k = (m.get? k).map (f k) := by
  ext b
  simp only [get?_eq_some_iff, mapValues, List.mem_map, Option.map_eq_some_iff, Prod.mk.injEq]
  constructor
  · rintro ⟨⟨j, a⟩, ha, rfl, rfl⟩
    exact ⟨a, ha, rfl⟩
  · rintro ⟨a, ha, rfl⟩
    exact ⟨(k, a), ha, rfl, rfl⟩

@[simp] lemma get?_filter (m : OrdMap κ α) (p : κ → α → Bool) (k : κ) :
    (m.filter p).get? k = (m.get? k).filter (p k) := by
  ext a
  simp [get?_eq_some_iff, filter, Option.filter_eq_some_iff]

variable [Std.TransOrd κ]

lemma get?_insert [DecidableEq κ] (m : OrdMap κ α) (k j : κ) (v : α) :
    (m.insert k v).get? j = if j = k then some v else m.get? j := by
  by_cases h : j = k
  · simp [h]
  · rw [if_neg h]
    exact get?_insert_of_ne m (fun hc => h (Std.LawfulEqOrd.eq_of_compare hc)) v

omit [Std.LawfulEqOrd κ] in
/-- A new key brings its value into the map, and the other values stay. -/
lemma perm_values_insert {m : OrdMap κ α} {k : κ} (h : m.get? k = none) (v : α) :
    (m.insert k v).values.Perm (v :: m.values) := by
  have hput (l : List (κ × α)) (hl : find k l = none) :
      ((put k v l).map Prod.snd).Perm (v :: l.map Prod.snd) := by
    induction l with
    | nil => exact .refl _
    | cons e l ih =>
      obtain ⟨j, w⟩ := e
      rw [put]
      rw [find] at hl
      cases hc : compare k j with
      | lt => exact .refl _
      | eq => simp [hc] at hl
      | gt =>
        simp only [hc] at hl
        exact ((ih hl).cons w).trans (.swap v w _)
  exact hput m.entries h

omit [Std.TransOrd κ] [Std.LawfulEqOrd κ] in
lemma ext_entries {m n : OrdMap κ α} (h : m.entries = n.entries) : m = n := by
  cases m
  cases n
  cases h
  rfl

/-- Maps with the same look-ups are one map. -/
lemma ext_get? {m n : OrdMap κ α} (h : ∀ k, m.get? k = n.get? k) : m = n :=
  ext_entries (eq_of_ordered Prod.fst m.ordered n.ordered fun ⟨k, v⟩ => by
    rw [← get?_eq_some_iff, ← get?_eq_some_iff, h])

lemma mapValues_insert [DecidableEq κ] (m : OrdMap κ α) (f : κ → α → β) (k : κ) (v : α) :
    (m.insert k v).mapValues f = (m.mapValues f).insert k (f k v) := ext_get? fun j => by
  simp only [get?_mapValues, get?_insert]
  split
  · rename_i hjk
    rw [hjk]
    rfl
  · rfl

/-! ### Maps from lists -/

omit [Std.LawfulEqOrd κ] in
lemma ofList_concat (l : List (κ × α)) (e : κ × α) :
    ofList (l ++ [e]) = (ofList l).insert e.1 e.2 := by simp [ofList]

lemma mem_of_get?_ofList [DecidableEq κ] {l : List (κ × α)} {k : κ} {v : α}
    (h : (ofList l).get? k = some v) : (k, v) ∈ l := by
  induction l using List.reverseRecOn with
  | nil => simp [ofList] at h
  | append_singleton l e ih =>
    rw [ofList_concat, get?_insert] at h
    split at h
    · rename_i hk
      obtain rfl := Option.some.inj h
      simp [hk]
    · exact List.mem_append_left _ (ih h)

lemma mem_keys_ofList [DecidableEq κ] {l : List (κ × α)} {k : κ} :
    k ∈ (ofList l).keys ↔ ∃ v, (k, v) ∈ l := by
  refine ⟨fun h => ?_, ?_⟩
  · obtain ⟨v, hv⟩ := mem_keys_iff.1 h
    exact ⟨v, mem_of_get?_ofList hv⟩
  · rintro ⟨v, hv⟩
    induction l using List.reverseRecOn with
    | nil => simp at hv
    | append_singleton l e ih =>
      rw [mem_keys_iff, ofList_concat]
      by_cases hk : k = e.1
      · exact ⟨e.2, by rw [get?_insert, if_pos hk]⟩
      · have hv : (k, v) ∈ l := by
          rcases List.mem_append.1 hv with hv | hv
          · exact hv
          · exact absurd (congrArg Prod.fst (List.mem_singleton.1 hv)) hk
        obtain ⟨w, hw⟩ := mem_keys_iff.1 (ih hv)
        exact ⟨w, by rw [get?_insert, if_neg hk, hw]⟩

/-- A list that gives each key one value is the map of its entries. -/
lemma get?_ofList_iff [DecidableEq κ] {l : List (κ × α)}
    (h : ∀ k v w, (k, v) ∈ l → (k, w) ∈ l → v = w) {k : κ} {v : α} :
    (ofList l).get? k = some v ↔ (k, v) ∈ l := by
  refine ⟨mem_of_get?_ofList, fun hv => ?_⟩
  obtain ⟨w, hw⟩ := mem_keys_iff.1 (mem_keys_ofList.2 ⟨v, hv⟩)
  rw [hw, h k v w hv (mem_of_get?_ofList hw)]

/-- Of the entries with a key the last one counts. -/
lemma get?_ofList [DecidableEq κ] (l : List (κ × α)) (k : κ) :
    (ofList l).get? k = (l.reverse.find? fun e => e.1 == k).map Prod.snd := by
  induction l using List.reverseRecOn with
  | nil => rfl
  | append_singleton l e ih =>
    rw [ofList_concat, get?_insert, ih, List.reverse_append]
    by_cases hk : k = e.1
    · simp [hk]
    · simp [hk, Ne.symm hk]

/-- Entries in order give their map back. -/
lemma ofList_entries [DecidableEq κ] (m : OrdMap κ α) : ofList m.entries = m := ext_get? fun k => by
  ext v
  rw [get?_ofList_iff fun k v w hv hw => ?_, get?_eq_some_iff]
  rw [← get?_eq_some_iff] at hv hw
  exact Option.some.inj (hv.symm.trans hw)

/-! ### Unions -/

/-- Where both maps have a key the second one counts. -/
lemma get?_union [DecidableEq κ] (m n : OrdMap κ α) (k : κ) :
    (m.union n).get? k = (n.get? k).or (m.get? k) := by
  have hfold (l : List (κ × α)) : (l.foldl (fun m e => m.insert e.1 e.2) m).get? k =
      ((ofList l).get? k).or (m.get? k) := by
    induction l using List.reverseRecOn with
    | nil => rfl
    | append_singleton l e ih =>
      rw [List.foldl_concat, ofList_concat, get?_insert, get?_insert, ih]
      split <;> rfl
  rw [union, hfold, ofList_entries]

lemma mem_keys_union [DecidableEq κ] {m n : OrdMap κ α} {k : κ} :
    k ∈ (m.union n).keys ↔ k ∈ m.keys ∨ k ∈ n.keys := by
  rw [← contains_iff_mem_keys, ← contains_iff_mem_keys, ← contains_iff_mem_keys, contains,
    contains, contains, get?_union, Option.isSome_or, Bool.or_eq_true, or_comm]

lemma union_assoc [DecidableEq κ] (l m n : OrdMap κ α) :
    (l.union m).union n = l.union (m.union n) :=
  ext_get? fun k => by simp only [get?_union, Option.or_assoc]

lemma union_self [DecidableEq κ] (m : OrdMap κ α) : m.union m = m := ext_get? fun k => by
  rw [get?_union, Option.or_self]

omit [Std.LawfulEqOrd κ] [Std.TransOrd κ] in
lemma isEmpty_iff_keys {m : OrdMap κ α} : m.isEmpty = true ↔ m.keys = [] := by
  rw [isEmpty, keys, List.map_eq_nil_iff, List.isEmpty_iff]

lemma isEmpty_union [DecidableEq κ] {m n : OrdMap κ α} :
    (m.union n).isEmpty = true ↔ m.isEmpty = true ∧ n.isEmpty = true := by
  simp only [isEmpty_iff_keys, List.eq_nil_iff_forall_not_mem, mem_keys_union, not_or, forall_and]

end OrdMap

namespace OrdSet

variable {κ : Type u} [Ord κ]

lemma isEmpty_iff {s : OrdSet κ} : s.isEmpty = true ↔ s.toList = [] := List.isEmpty_iff

lemma nodup [Std.ReflOrd κ] (s : OrdSet κ) : s.toList.Nodup :=
  s.ordered.imp fun h hab => by
    rw [hab, Std.ReflOrd.compare_self] at h
    cases h

lemma nodup_keys {α : Type v} [Std.ReflOrd κ] (m : OrdMap κ α) : m.keys.Nodup := (ofKeys m).nodup

variable [Std.LawfulEqOrd κ]

@[simp] lemma mem_ofKeys {α : Type v} {m : OrdMap κ α} {k : κ} :
    k ∈ (ofKeys m).toList ↔ m.contains k = true := OrdMap.contains_iff_mem_keys.symm

@[simp] lemma mem_erase {s : OrdSet κ} {k x : κ} :
    x ∈ (s.erase k).toList ↔ x ∈ s.toList ∧ x ≠ k := by
  simp only [erase, mem_filter, Bool.not_eq_true', beq_eq_false_iff_ne, ne_eq,
    Std.compare_eq_iff_eq, @eq_comm κ k x]

omit [Std.LawfulEqOrd κ] in
/-- Sets with the same elements are one set. -/
lemma ext_toList {s t : OrdSet κ} (h : s.toList = t.toList) : s = t := by
  cases s
  cases t
  cases h
  rfl

omit [Std.LawfulEqOrd κ] in
lemma ext_mem [Std.TransOrd κ] {s t : OrdSet κ} (h : ∀ k, k ∈ s.toList ↔ k ∈ t.toList) : s = t :=
  ext_toList (eq_of_ordered id s.ordered t.ordered h)

lemma insert_of_mem [Std.TransOrd κ] {s : OrdSet κ} {k : κ} (h : k ∈ s.toList) :
    s.insert k = s := ext_mem fun x => by
  rw [mem_insert]
  exact ⟨fun hx => hx.elim (fun hk => hk ▸ h) id, .inr⟩

lemma union_of_subset [Std.TransOrd κ] {s t : OrdSet κ} (h : t.toList ⊆ s.toList) :
    s.union t = s := ext_mem fun x => by
  rw [mem_union]
  exact ⟨fun hx => hx.elim id (@h x), .inl⟩

lemma isEmpty_union [Std.TransOrd κ] {s t : OrdSet κ} :
    (s.union t).isEmpty = true ↔ s.isEmpty = true ∧ t.isEmpty = true := by
  simp only [isEmpty_iff, List.eq_nil_iff_forall_not_mem, mem_union, not_or, forall_and]

lemma union_assoc [Std.TransOrd κ] (s t u : OrdSet κ) : (s.union t).union u = s.union (t.union u) :=
  ext_mem fun x => by simp only [mem_union, or_assoc]

lemma union_comm [Std.TransOrd κ] (s t : OrdSet κ) : s.union t = t.union s := ext_mem fun x => by
  rw [mem_union, mem_union, or_comm]

lemma union_self [Std.TransOrd κ] (s : OrdSet κ) : s.union s = s :=
  union_of_subset (List.Subset.refl _)

@[simp] lemma mem_ofList [Std.TransOrd κ] {l : List κ} {x : κ} :
    x ∈ (ofList l).toList ↔ x ∈ l := by
  simp [ofList, empty]

/-- Elements in order give their set back. -/
lemma ofList_toList [Std.TransOrd κ] (s : OrdSet κ) : ofList s.toList = s :=
  ext_mem fun _ => mem_ofList

end OrdSet

/-- Names stand in the order of their code points. -/
lemma NameSet.sorted (s : NameSet) : s.toList.Pairwise (· < ·) :=
  s.ordered.imp fun h => compareOfLessAndEq_eq_lt.1 h

end AddonAtlas
