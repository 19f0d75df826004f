import AddonAtlas.Ordered.Map

/-!
Finite sets kept as lists of elements in strictly increasing order.
-/

namespace AddonAtlas

/-- Elements in strictly increasing order. -/
structure OrdSet (κ : Type u) [Ord κ] where
  toList : List κ
  ordered : toList.Pairwise fun a b => compare a b = .lt

namespace OrdSet

variable {κ : Type u} [Ord κ]

instance : Inhabited (OrdSet κ) := ⟨⟨[], .nil⟩⟩

def empty : OrdSet κ := ⟨[], .nil⟩

def isEmpty (s : OrdSet κ) : Bool := s.toList.isEmpty

def size (s : OrdSet κ) : Nat := s.toList.length

def contains (s : OrdSet κ) (k : κ) : Bool := s.toList.any fun j => compare k j == .eq

/-- Put an element at its place, unless an equal one stands there. -/
def put (k : κ) : List κ → List κ
  | [] => [k]
  | j :: r => match compare k j with
    | .lt => k :: j :: r
    | .eq => j :: r
    | .gt => j :: put k r

theorem mem_put_imp {k : κ} {l : List κ} {x : κ} (h : x ∈ put k l) : x = k ∨ x ∈ l := by
  induction l with
  | nil => simpa [put] using h
  | cons j r ih =>
    unfold put at h
    split at h <;> simp only [List.mem_cons] at h ⊢
    · exact h
    · exact .inr h
    · rcases h with h | h
      · exact .inr (.inl h)
      · rcases ih h with h | h
        · exact .inl h
        · exact .inr (.inr h)

theorem ordered_put [Std.TransOrd κ] (k : κ) {l : List κ}
    (h : l.Pairwise fun a b => compare a b = .lt) :
    (put k l).Pairwise fun a b => compare a b = .lt := by
  induction l with
  | nil => simp [put]
  | cons j r ih =>
    obtain ⟨hj, hr⟩ := List.pairwise_cons.1 h
    unfold put
    split <;> rename_i hc
    · refine List.pairwise_cons.2 ⟨fun e he => ?_, h⟩
      rcases List.mem_cons.1 he with rfl | he
      · exact hc
      · exact Std.TransCmp.lt_trans hc (hj e he)
    · exact h
    · refine List.pairwise_cons.2 ⟨fun e he => ?_, ih hr⟩
      rcases mem_put_imp he with rfl | he
      · exact Std.OrientedCmp.lt_of_gt hc
      · exact hj e he

def insert [Std.TransOrd κ] (s : OrdSet κ) (k : κ) : OrdSet κ :=
  ⟨put k s.toList, ordered_put k s.ordered⟩

def insertMany [Std.TransOrd κ] (s : OrdSet κ) (l : List κ) : OrdSet κ := l.foldl insert s

def ofList [Std.TransOrd κ] (l : List κ) : OrdSet κ := empty.insertMany l

def singleton [Std.TransOrd κ] (k : κ) : OrdSet κ := empty.insert k

def union [Std.TransOrd κ] (s t : OrdSet κ) : OrdSet κ := s.insertMany t.toList

def filter (s : OrdSet κ) (p : κ → Bool) : OrdSet κ := ⟨s.toList.filter p, s.ordered.filter _⟩

/-- The elements of the first that the second does not have. -/
def diff (s t : OrdSet κ) : OrdSet κ := s.filter fun k => !t.contains k

def erase (s : OrdSet κ) (k : κ) : OrdSet κ := s.filter fun j => !(compare k j == .eq)

def all (s : OrdSet κ) (p : κ → Bool) : Bool := s.toList.all p

def isSubset (s t : OrdSet κ) : Bool := s.all t.contains

/-- The keys of a map. -/
def ofKeys {α : Type v} (m : OrdMap κ α) : OrdSet κ :=
  ⟨m.keys, by simpa [OrdMap.keys, List.pairwise_map] using m.ordered⟩

theorem mem_put [Std.LawfulEqOrd κ] {k : κ} {l : List κ} {x : κ} :
    x ∈ put k l ↔ x = k ∨ x ∈ l := by
  refine ⟨mem_put_imp, fun h => ?_⟩
  induction l with
  | nil => simpa [put] using h
  | cons j r ih =>
    unfold put
    split <;> rename_i hc
    · simpa using h
    · have : k = j := Std.LawfulEqOrd.eq_of_compare hc
      subst this
      simpa using h
    · simp only [List.mem_cons] at h ⊢
      rcases h with h | h | h
      · exact .inr (ih (.inl h))
      · exact .inl h
      · exact .inr (ih (.inr h))

@[simp] theorem contains_iff [Std.LawfulEqOrd κ] {s : OrdSet κ} {k : κ} :
    s.contains k = true ↔ k ∈ s.toList := by
  simp [contains, List.any_eq_true]

@[simp] theorem mem_insert [Std.TransOrd κ] [Std.LawfulEqOrd κ] {s : OrdSet κ} {k x : κ} :
    x ∈ (s.insert k).toList ↔ x = k ∨ x ∈ s.toList := mem_put

@[simp] theorem mem_insertMany [Std.TransOrd κ] [Std.LawfulEqOrd κ] {s : OrdSet κ} {l : List κ}
    {x : κ} : x ∈ (s.insertMany l).toList ↔ x ∈ s.toList ∨ x ∈ l := by
  induction l generalizing s with
  | nil => simp [insertMany]
  | cons a r ih =>
    have h := @ih (s.insert a)
    simp only [insertMany, List.foldl_cons] at h ⊢
    rw [h]
    simp only [mem_insert, List.mem_cons]
    grind

@[simp] theorem mem_union [Std.TransOrd κ] [Std.LawfulEqOrd κ] {s t : OrdSet κ} {x : κ} :
    x ∈ (s.union t).toList ↔ x ∈ s.toList ∨ x ∈ t.toList := mem_insertMany

@[simp] theorem mem_filter {s : OrdSet κ} {p : κ → Bool} {x : κ} :
    x ∈ (s.filter p).toList ↔ x ∈ s.toList ∧ p x = true := List.mem_filter

end OrdSet

/-- A set of names, in the order of their code points. -/
abbrev NameSet := OrdSet String

/-- A map from names, in the order of their code points. -/
abbrev NameMap (α : Type u) := OrdMap String α

end AddonAtlas
