import AddonAtlas.Proofs.Ordered.Lookup

/-!
Maps that gather values under keys, and the first and last finds in an ordered list.

Where a key comes again, its value is merged into the one that stands there. So under a key stand
all values that come with it, put together in their order.
-/

namespace AddonAtlas

variable {κ : Type u} {α : Type v} {β : Type w}

/-! ## Merged lists -/

/-- Put values together: each is merged into what those before it make. -/
def mergeList (merge : α → α → α) (l : List α) : Option α :=
  l.foldl (fun old x => some (old.elim x fun whole => merge whole x)) none

variable {merge : α → α → α} {l : List α} {whole : α}

lemma mergeList_concat (merge : α → α → α) (l : List α) (x : α) :
    mergeList merge (l ++ [x]) = some ((mergeList merge l).elim x fun whole => merge whole x) := by
  rw [mergeList, List.foldl_concat, mergeList]

lemma mergeList_eq_none_iff : mergeList merge l = none ↔ l = [] := by
  induction l using List.reverseRecOn with
  | nil => exact ⟨fun _ => rfl, fun _ => rfl⟩
  | append_singleton l x _ => simp [mergeList_concat]

lemma mergeList_toList (merge : α → α → α) (o : Option α) : mergeList merge o.toList = o := by
  cases o <;> rfl

/-- What holds of a single value, and goes on to hold when a further value is merged in, holds of
all values put together. -/
lemma mergeList_induction {P : List α → α → Prop} (hsingle : ∀ x ∈ l, P [x] x)
    (hmerge : ∀ l' old, ∀ x ∈ l, P l' old → P (l' ++ [x]) (merge old x))
    (h : mergeList merge l = some whole) : P l whole := by
  induction l using List.reverseRecOn generalizing whole with
  | nil => cases h
  | append_singleton l x ih =>
    rw [mergeList_concat] at h
    obtain rfl := Option.some.inj h
    cases hold : mergeList merge l with
    | none =>
      obtain rfl := mergeList_eq_none_iff.1 hold
      exact hsingle x (by simp)
    | some old =>
      refine hmerge l old x (by simp) (ih (fun y hy => ?_) (fun l' old y hy => ?_) hold)
      · exact hsingle y (List.mem_append_left _ hy)
      · exact hmerge l' old y (List.mem_append_left _ hy)

/-! ## First and last finds -/

/-- The first find in a list that stands in some order is the one that no element before it makes.
-/
lemma head?_filterMap_iff {r : α → α → Prop} [Std.Asymm r] {f : α → Option β} (h : l.Pairwise r)
    {b : β} : (l.filterMap f).head? = some b ↔
      ∃ a ∈ l, f a = some b ∧ ∀ a' ∈ l, r a' a → f a' = none := by
  induction l with
  | nil => simp
  | cons a l ih =>
    obtain ⟨ha, hl⟩ := List.pairwise_cons.1 h
    cases hfa : f a with
    | none =>
      rw [List.filterMap_cons_none hfa, ih hl]
      constructor
      · rintro ⟨x, hx, hfx, hbefore⟩
        exact ⟨x, List.mem_cons_of_mem _ hx, hfx, List.forall_mem_cons.2 ⟨fun _ => hfa, hbefore⟩⟩
      · rintro ⟨x, hx, hfx, hbefore⟩
        rcases List.mem_cons.1 hx with rfl | hx
        · rw [hfa] at hfx
          cases hfx
        · exact ⟨x, hx, hfx, (List.forall_mem_cons.1 hbefore).2⟩
    | some w =>
      rw [List.filterMap_cons_some hfa, List.head?_cons]
      constructor
      · intro hw
        refine ⟨a, List.mem_cons_self, hfa.trans hw, fun x hx hxa => ?_⟩
        -- nothing stands before the head
        rcases List.mem_cons.1 hx with rfl | hx
        · exact absurd hxa (Std.Asymm.asymm _ _ hxa)
        · exact absurd hxa (Std.Asymm.asymm _ _ (ha x hx))
      · rintro ⟨x, hx, hfx, hbefore⟩
        rcases List.mem_cons.1 hx with rfl | hx
        · exact hfa.symm.trans hfx
        · rw [hbefore a List.mem_cons_self (ha x hx)] at hfa
          cases hfa

lemma getLast?_filterMap_iff {r : α → α → Prop} [Std.Asymm r] {f : α → Option β} (h : l.Pairwise r)
    {b : β} : (l.filterMap f).getLast? = some b ↔
      ∃ a ∈ l, f a = some b ∧ ∀ a' ∈ l, r a a' → f a' = none := by
  have : Std.Asymm fun a b : α => r b a := ⟨fun a b hab => Std.Asymm.asymm b a hab⟩
  rw [List.getLast?_eq_head?_reverse, ← List.filterMap_reverse,
    head?_filterMap_iff (List.pairwise_reverse.2 h)]
  simp only [List.mem_reverse]

/-! ## Gathered maps -/

namespace OrdMap

variable [DecidableEq κ]

/-- The values that come with a key in a list of entries. -/
def valuesAt (k : κ) (l : List (κ × α)) : List α := (l.filter fun e => e.1 = k).map Prod.snd

lemma valuesAt_concat (k : κ) (l : List (κ × α)) (e : κ × α) :
    valuesAt k (l ++ [e]) = if e.1 = k then valuesAt k l ++ [e.2] else valuesAt k l := by
  rw [valuesAt, List.filter_append, List.map_append, valuesAt]
  split <;> simp [*]

/-- A value among those that come with a key is that of an entry, with the values before it and
behind it on its two sides. -/
lemma valuesAt_eq_append_cons {k : κ} {x : α} {l : List (κ × α)} {before behind : List α} :
    valuesAt k l = before ++ x :: behind ↔ ∃ front back, l = front ++ (k, x) :: back ∧
      valuesAt k front = before ∧ valuesAt k back = behind := by
  constructor
  · intro h
    obtain ⟨l₁, l₂, hl, rfl, hl₂⟩ := List.map_eq_append_iff.1 h
    obtain ⟨e, l₃, rfl, rfl, rfl⟩ := List.map_eq_cons_iff.1 hl₂
    obtain ⟨front, r, rfl, rfl, hr⟩ := List.filter_eq_append_iff.1 hl
    obtain ⟨skipped, back, rfl, hskipped, hkey, rfl⟩ := List.filter_eq_cons_iff.1 hr
    obtain rfl : e.1 = k := by simpa using hkey
    have hnone : skipped.filter (fun d => d.1 = e.1) = [] := List.filter_eq_nil_iff.2 hskipped
    refine ⟨front ++ skipped, back, by simp, ?_, rfl⟩
    rw [valuesAt, List.filter_append, hnone, List.append_nil]
  · rintro ⟨front, back, rfl, rfl, rfl⟩
    simp [valuesAt]

variable [Ord κ] [Std.LawfulEqOrd κ]

/-- In order, a key comes once at most. -/
lemma valuesAt_entries (m : OrdMap κ α) (k : κ) : valuesAt k m.entries = (m.get? k).toList := by
  have hlist (l : List (κ × α)) (h : l.Pairwise fun a b => compare a.1 b.1 = .lt) :
      valuesAt k l = (find k l).toList := by
    induction l with
    | nil => rfl
    | cons e l ih =>
      obtain ⟨j, v⟩ := e
      obtain ⟨hj, hl⟩ := List.pairwise_cons.1 h
      by_cases hjk : j = k
      · subst hjk
        have hrest : l.filter (fun e => e.1 = j) = [] := by
          refine List.filter_eq_nil_iff.2 fun e he hk => ?_
          have hlt : compare j e.1 = .lt := hj e he
          have hself : compare j j = .eq := Std.ReflCmp.compare_self
          rw [of_decide_eq_true hk, hself] at hlt
          cases hlt
        simp [valuesAt, hrest, find, Std.ReflCmp.compare_self]
      · have hne : compare k j ≠ .eq := fun hc => hjk (Std.LawfulEqOrd.eq_of_compare hc).symm
        rw [find_cons_of_ne hne, ← ih hl, valuesAt, List.filter_cons_of_neg (by simpa using hjk),
          valuesAt]
  exact hlist m.entries m.ordered

lemma valuesAt_flatMap (f : β → OrdMap κ α) (l : List β) (k : κ) :
    valuesAt k (l.flatMap fun b => (f b).entries) = l.filterMap fun b => (f b).get? k := by
  rw [List.filterMap_eq_flatMap_toList, valuesAt, List.filter_flatMap, List.map_flatMap]
  exact congrArg (List.flatMap · l) (funext fun b => valuesAt_entries (f b) k)

variable [Std.TransOrd κ]

/-- Put entries into a map one after another. -/
def insertAll (m : OrdMap κ α) (l : List (κ × α)) : OrdMap κ α :=
  l.foldl (fun m e => m.insert e.1 e.2) m

omit [DecidableEq κ] [Std.LawfulEqOrd κ] in
lemma ofList_append (l l' : List (κ × α)) : ofList (l ++ l') = (ofList l).insertAll l' := by
  rw [ofList, List.foldl_append, insertAll, ofList]

/-- Of the values that come with a key the last one counts. -/
lemma get?_ofList_eq_getLast? (l : List (κ × α)) (k : κ) :
    (ofList l).get? k = (valuesAt k l).getLast? := by
  rw [get?_ofList, valuesAt, List.getLast?_map, List.getLast?_eq_head?_reverse,
    ← List.filter_reverse, List.head?_filter]
  rfl

/-- Merge the value of an entry into the one that stands under its key. -/
def mergeIn (merge : α → α → α) (m : OrdMap κ α) (e : κ × α) : OrdMap κ α :=
  m.insert e.1 ((m.get? e.1).elim e.2 fun old => merge old e.2)

omit [DecidableEq κ] [Std.LawfulEqOrd κ] in
lemma update_eq_mergeIn {merge : α → α → α} {f : Option α → α} {v : α} (hnone : f none = v)
    (hsome : ∀ old, f (some old) = merge old v) (m : OrdMap κ α) (k : κ) :
    m.update k f = mergeIn merge m (k, v) := by
  rw [update, mergeIn]
  cases m.get? k with
  | none => rw [hnone, Option.elim_none]
  | some old => rw [hsome, Option.elim_some]

/-- Under a key stands what stood there before, with all values of the key merged in. -/
lemma get?_foldl_mergeIn (merge : α → α → α) (m : OrdMap κ α) (l : List (κ × α)) (k : κ) :
    (l.foldl (mergeIn merge) m).get? k =
      mergeList merge ((m.get? k).toList ++ valuesAt k l) := by
  induction l using List.reverseRecOn with
  | nil => simp [valuesAt, mergeList_toList]
  | append_singleton l e ih =>
    rw [List.foldl_concat, mergeIn, get?_insert, valuesAt_concat]
    by_cases hk : e.1 = k
    · rw [if_pos hk.symm, if_pos hk, ← List.append_assoc, mergeList_concat, ← ih, hk]
    · rw [if_neg (Ne.symm hk), if_neg hk, ih]

/-- The entries of several maps in one map. -/
def gather (merge : α → α → α) (f : β → OrdMap κ α) (l : List β) : OrdMap κ α :=
  (l.flatMap fun b => (f b).entries).foldl (mergeIn merge) .empty

lemma get?_gather (merge : α → α → α) (f : β → OrdMap κ α) (l : List β) (k : κ) :
    (gather merge f l).get? k = mergeList merge (l.filterMap fun b => (f b).get? k) := by
  rw [gather, get?_foldl_mergeIn, get?_empty, valuesAt_flatMap]
  rfl

lemma mem_keys_gather {f : β → OrdMap κ α} {l : List β} {k : κ} :
    k ∈ (gather merge f l).keys ↔ ∃ b ∈ l, k ∈ (f b).keys := by
  rw [mem_keys_iff, get?_gather, ← Option.ne_none_iff_exists', Ne, mergeList_eq_none_iff]
  constructor
  · intro hne
    obtain ⟨v, hv⟩ := List.exists_mem_of_ne_nil _ hne
    obtain ⟨b, hb, hget⟩ := List.mem_filterMap.1 hv
    exact ⟨b, hb, mem_keys_iff.2 ⟨v, hget⟩⟩
  · rintro ⟨b, hb, hk⟩
    obtain ⟨v, hget⟩ := mem_keys_iff.1 hk
    exact List.ne_nil_of_mem (List.mem_filterMap.2 ⟨b, hb, hget⟩)

end OrdMap

end AddonAtlas
