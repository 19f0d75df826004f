/-!
Finite maps kept as lists of entries in strictly increasing key order.

Two maps with the same look-ups are the same list, so equality of maps is equality of what
they hold, and walking the entries is walking them in key order.
-/

namespace AddonAtlas

/-- Entries in strictly increasing key order. -/
structure OrdMap (κ : Type u) (α : Type v) [Ord κ] where
  entries : List (κ × α)
  ordered : entries.Pairwise fun a b => compare a.1 b.1 = .lt

namespace OrdMap

variable {κ : Type u} {α : Type v} {β : Type w} [Ord κ]

instance : Inhabited (OrdMap κ α) := ⟨⟨[], .nil⟩⟩

def empty : OrdMap κ α := ⟨[], .nil⟩

def isEmpty (m : OrdMap κ α) : Bool := m.entries.isEmpty

def size (m : OrdMap κ α) : Nat := m.entries.length

def keys (m : OrdMap κ α) : List κ := m.entries.map (·.1)

def values (m : OrdMap κ α) : List α := m.entries.map (·.2)

/-- The value at a key of a list of entries. -/
def find (k : κ) : List (κ × α) → Option α
  | [] => none
  | (j, v) :: r => match compare k j with
    | .eq => some v
    | _ => find k r

def get? (m : OrdMap κ α) (k : κ) : Option α := find k m.entries

def getD (m : OrdMap κ α) (k : κ) (d : α) : α := (m.get? k).getD d

def contains (m : OrdMap κ α) (k : κ) : Bool := (m.get? k).isSome

/-- Put a value at its place, replacing the one that stands there. -/
def put (k : κ) (v : α) : List (κ × α) → List (κ × α)
  | [] => [(k, v)]
  | (j, w) :: r => match compare k j with
    | .lt => (k, v) :: (j, w) :: r
    | .eq => (k, v) :: r
    | .gt => (j, w) :: put k v r

theorem mem_put {k : κ} {v : α} {l : List (κ × α)} {e : κ × α} (h : e ∈ put k v l) :
    e = (k, v) ∨ e ∈ l := by
  induction l with
  | nil => simpa [put] using h
  | cons a r ih =>
    obtain ⟨j, w⟩ := a
    unfold put at h
    split at h <;> simp only [List.mem_cons] at h ⊢
    · exact h
    · rcases h with h | h
      · exact .inl h
      · exact .inr (.inr h)
    · rcases h with h | h
      · exact .inr (.inl h)
      · rcases ih h with h | h
        · exact .inl h
        · exact .inr (.inr h)

theorem ordered_put [Std.TransOrd κ] (k : κ) (v : α) {l : List (κ × α)}
    (h : l.Pairwise fun a b => compare a.1 b.1 = .lt) :
    (put k v l).Pairwise fun a b => compare a.1 b.1 = .lt := by
  induction l with
  | nil => simp [put]
  | cons a r ih =>
    obtain ⟨j, w⟩ := a
    obtain ⟨hj, hr⟩ := List.pairwise_cons.1 h
    unfold put
    split <;> rename_i hc
    · refine List.pairwise_cons.2 ⟨fun e he => ?_, h⟩
      rcases List.mem_cons.1 he with rfl | he
      · exact hc
      · exact Std.TransCmp.lt_trans hc (hj e he)
    · refine List.pairwise_cons.2 ⟨fun e he => ?_, hr⟩
      exact Std.TransCmp.lt_of_eq_of_lt hc (hj e he)
    · refine List.pairwise_cons.2 ⟨fun e he => ?_, ih hr⟩
      rcases mem_put he with rfl | he
      · exact Std.OrientedCmp.lt_of_gt hc
      · exact hj e he

def insert [Std.TransOrd κ] (m : OrdMap κ α) (k : κ) (v : α) : OrdMap κ α :=
  ⟨put k v m.entries, ordered_put k v m.ordered⟩

/-- Insert unless the key is already there. -/
def insertIfNew [Std.TransOrd κ] (m : OrdMap κ α) (k : κ) (v : α) : OrdMap κ α :=
  if m.contains k then m else m.insert k v

/-- Replace the value at a key by a function of the old one. -/
def update [Std.TransOrd κ] (m : OrdMap κ α) (k : κ) (f : Option α → α) : OrdMap κ α :=
  m.insert k (f (m.get? k))

/-- Later entries win. -/
def ofList [Std.TransOrd κ] (l : List (κ × α)) : OrdMap κ α :=
  l.foldl (fun m e => m.insert e.1 e.2) empty

/-- The entries of both, those of the second where both have the key. -/
def union [Std.TransOrd κ] (m n : OrdMap κ α) : OrdMap κ α :=
  n.entries.foldl (fun m e => m.insert e.1 e.2) m

def filter (m : OrdMap κ α) (p : κ → α → Bool) : OrdMap κ α :=
  ⟨m.entries.filter fun e => p e.1 e.2, m.ordered.filter _⟩

def mapValues (m : OrdMap κ α) (f : κ → α → β) : OrdMap κ β :=
  ⟨m.entries.map fun e => (e.1, f e.1 e.2), by
    have h := m.ordered
    simpa [List.pairwise_map] using h⟩

def toList (m : OrdMap κ α) : List (κ × α) := m.entries

@[simp] theorem get?_empty (k : κ) : (empty : OrdMap κ α).get? k = none := rfl

theorem find_put_self [Std.TransOrd κ] (k : κ) (v : α) (l : List (κ × α)) :
    find k (put k v l) = some v := by
  induction l with
  | nil => simp [put, find, Std.ReflCmp.compare_self]
  | cons a r ih =>
    obtain ⟨j, w⟩ := a
    unfold put
    split <;> rename_i hc
    · simp [find, Std.ReflCmp.compare_self]
    · simp [find, Std.ReflCmp.compare_self]
    · simp [find, hc, ih]

@[simp] theorem get?_insert_self [Std.TransOrd κ] (m : OrdMap κ α) (k : κ) (v : α) :
    (m.insert k v).get? k = some v := find_put_self k v m.entries

theorem find_cons_of_ne {j k : κ} (h : compare j k ≠ .eq) (v : α) (l : List (κ × α)) :
    find j ((k, v) :: l) = find j l := by
  rw [find]
  split
  · exact absurd ‹_› h
  · rfl

theorem find_put_of_ne [Std.TransOrd κ] {k j : κ} (h : compare j k ≠ .eq) (v : α)
    (l : List (κ × α)) : find j (put k v l) = find j l := by
  induction l with
  | nil => exact find_cons_of_ne h v []
  | cons a r ih =>
    obtain ⟨i, w⟩ := a
    unfold put
    split <;> rename_i hc
    · exact find_cons_of_ne h v _
    · have hi : compare j i ≠ .eq := fun hji =>
        h (Std.TransCmp.eq_trans hji (Std.OrientedCmp.eq_symm hc))
      rw [find_cons_of_ne h, find_cons_of_ne hi]
    · rw [find, find, ih]

theorem get?_insert_of_ne [Std.TransOrd κ] (m : OrdMap κ α) {k j : κ} (h : compare j k ≠ .eq)
    (v : α) : (m.insert k v).get? j = m.get? j := find_put_of_ne h v m.entries

end OrdMap

end AddonAtlas
