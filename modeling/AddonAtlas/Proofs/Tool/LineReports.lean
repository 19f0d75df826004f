import AddonAtlas.Tool.LineReport
import Mathlib.Algebra.Order.BigOperators.Group.List
import Mathlib.Algebra.Order.Group.Nat
import Mathlib.Data.UInt

/-!
Totals of line reports.

Words are added one after another, and the program stops where a sum is too large for a word. As
natural numbers the sums only grow, so it stops just if the whole sum is too large. Otherwise that
is the total of a report, and no language has more lines.
-/

namespace AddonAtlas

variable {a b c n : UInt64} {l : List UInt64}

/-! ## Sums of words -/

/-- The sum of words as natural numbers. -/
def exactSum (l : List UInt64) : Nat := (l.map UInt64.toNat).sum

@[simp] lemma exactSum_nil : exactSum [] = 0 := rfl

@[simp] lemma exactSum_cons (n : UInt64) (l : List UInt64) :
    exactSum (n :: l) = n.toNat + exactSum l := by
  simp [exactSum]

lemma toNat_le_exactSum (h : n ∈ l) : n.toNat ≤ exactSum l :=
  List.le_sum_of_mem (List.mem_map_of_mem h)

namespace Word

lemma add?_eq_some_iff : add? a b = some c ↔ c.toNat = a.toNat + b.toNat := by
  have hc : c.toNat < 2 ^ 64 := c.toNat_lt
  have hsum : (a + b).toNat = (a.toNat + b.toNat) % 2 ^ 64 := UInt64.toNat_add a b
  have hsize : UInt64.size = 2 ^ 64 := rfl
  unfold add?
  split
  · rename_i h
    rw [Nat.mod_eq_of_lt (hsize ▸ h)] at hsum
    rw [Option.some.injEq, ← UInt64.toNat_inj, hsum, eq_comm]
  · simp only [reduceCtorEq, false_iff]
    omega

lemma add?_eq_none_iff : add? a b = none ↔ 2 ^ 64 ≤ a.toNat + b.toNat := by
  unfold add?
  split <;> simp_all [UInt64.size]

/-- Sums only grow, so the last one tells of all. -/
lemma foldlM_add?_eq_some_iff : l.foldlM add? a = some c ↔ c.toNat = a.toNat + exactSum l := by
  induction l generalizing a with
  | nil => simp [← UInt64.toNat_inj, eq_comm]
  | cons n l ih =>
    simp only [List.foldlM_cons, Option.bind_eq_bind, Option.bind_eq_some_iff, add?_eq_some_iff, ih,
      exactSum_cons]
    constructor
    · rintro ⟨b, hb, hc⟩
      omega
    · intro hc
      have hlt : a.toNat + n.toNat < 2 ^ 64 := by
        have := c.toNat_lt
        omega
      refine ⟨a + n, ?_, ?_⟩ <;> rw [UInt64.toNat_add, Nat.mod_eq_of_lt hlt]
      omega

lemma sum?_eq_some_iff : sum? l = some c ↔ c.toNat = exactSum l := by
  rw [sum?, foldlM_add?_eq_some_iff]
  simp

lemma sum?_eq_none_iff : sum? l = none ↔ 2 ^ 64 ≤ exactSum l := by
  rw [Option.eq_none_iff_forall_ne_some]
  simp only [Ne, sum?_eq_some_iff]
  constructor
  · intro h
    by_contra hlt
    exact h (UInt64.ofNat (exactSum l)) (UInt64.toNat_ofNat_of_lt' (not_le.1 hlt))
  · intro h c hc
    have := c.toNat_lt
    omega

end Word

/-! ## Line reports -/

namespace Tool.LineReport

variable {report : String} {shares : NameMap LanguageShare}

lemma read?_eq_none_iff : read? report = none ↔ 2 ^ 64 ≤ exactSum (counts report).values := by
  rw [read?, Option.map_eq_none_iff, Word.sum?_eq_none_iff]

lemma read?_eq_some_iff : read? report = some shares ↔
    ∃ total, total.toNat = exactSum (counts report).values ∧
      (counts report).mapValues (fun _ n => share total n) = shares := by
  simp only [read?, Option.map_eq_some_iff, Word.sum?_eq_some_iff]

/-- A total is the sum of its counts, so none of them is larger. -/
lemma le_total {total : UInt64} (h : total.toNat = exactSum (counts report).values)
    (hn : n ∈ (counts report).values) : n ≤ total := by
  rw [UInt64.le_iff_toNat_le, h]
  exact toNat_le_exactSum hn

end Tool.LineReport

end AddonAtlas
