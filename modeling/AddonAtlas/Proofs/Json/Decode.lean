import AddonAtlas.Entity.Json
import AddonAtlas.Proofs.Files.PathSets
import AddonAtlas.Proofs.Json.RoundTrip
import Mathlib.Data.List.Nodup

/-!
Decoding what was encoded.

`Saves d decode x v` says that a value `v` stands for `x` in saved data: it can be written, it is
nested at most `d` deep, and `x` is decoded from it. There is one lemma for each way in which a
structure holds its data, so that a structure is saved when its fields are.
-/

namespace AddonAtlas.Json

variable {α β γ : Type} {d : Nat} {decode : Value → Option α} {x : α} {v : Value}

/-- A value stands for something in saved data. -/
structure Saves (d : Nat) (decode : Value → Option α) (x : α) (v : Value) : Prop where
  writable : v.Writable
  depth : v.depth ≤ d
  decoded : decode v = some x

lemma Saves.part (h : Saves d decode x v) : v.Writable ∧ v.depth ≤ d := ⟨h.writable, h.depth⟩

/-! ## Fields of structures -/

/-- The fields of an object that writes each name once. -/
def written (fs : List (String × Value)) : Fields := fun n =>
  (fs.find? fun f => f.1 == n).map (·.2)

lemma bind_fields {names : List String} {fs : List (String × Value)} {f : Fields → Option β} {y : β}
    (hnames : names.Nodup) (hfs : fs.map Prod.fst = names) (hy : f (written fs) = some y) :
    (fields? names (.object fs) >>= f) = some y := by
  have honce : names.all (fun n => (fs.filter fun f => f.1 == n).length ≤ 1) = true := by
    refine List.all_eq_true.2 fun n _ => decide_eq_true ?_
    have hcount : (fs.filter fun f => f.1 == n).length = names.count n := by
      rw [← hfs, List.count, List.countP_map, List.countP_eq_length_filter]
      rfl
    rw [hcount]
    exact List.nodup_iff_count_le_one.1 hnames n
  have hfields : fields? names (.object fs) = some (written fs) := if_pos honce
  rw [hfields]
  exact hy

lemma bind_required {fs : Fields} {n : String} {f : α → Option β} {y : β} (hv : fs n = some v)
    (hx : Saves d decode x v) (hy : f x = some y) : (required fs n decode >>= f) = some y := by
  rw [required, hv, Option.bind_some, hx.decoded]
  exact hy

lemma bind_defaulted {fs : Fields} {n : String} {default : α} {f : α → Option β} {y : β}
    (hv : fs n = some v) (hx : Saves d decode x v) (hy : f x = some y) :
    (defaulted fs n decode default >>= f) = some y := by
  rw [defaulted, hv]
  exact Option.bind_eq_some_iff.2 ⟨x, hx.decoded, hy⟩

/-! ## Scalars -/

lemma saves_text (s : String) : Saves d text? s (.text s) := ⟨.text s, Nat.zero_le d, rfl⟩

lemma saves_path (p : Path) : Saves d path? p (.text p.text) := ⟨.text _, Nat.zero_le d, rfl⟩

lemma saves_bool (b : Bool) : Saves d bool? b (.bool b) := ⟨.bool b, Nat.zero_le d, rfl⟩

lemma saves_float {y : Float} (h : RoundTrips y) : Saves d float? y (.float y) :=
  ⟨.float h, Nat.zero_le d, if_pos h.finite⟩

lemma natBelow?_of_lt {bound n : Nat} (h : n < bound) : natBelow? bound (.int n) = some n := by
  simp [natBelow?, h]

lemma saves_word32 (n : UInt32) : Saves d word32? n (.int n.toNat) where
  writable := .int ⟨by omega, by have := n.toNat_lt; omega⟩
  depth := Nat.zero_le d
  decoded := by
    rw [word32?, natBelow?_of_lt n.toNat_lt, Option.map_some, UInt32.ofNat_toNat]

lemma saves_word64 (n : UInt64) : Saves d word64? n (.int n.toNat) where
  writable := .int ⟨by omega, by have := n.toNat_lt; omega⟩
  depth := Nat.zero_le d
  decoded := by
    rw [word64?, natBelow?_of_lt n.toNat_lt, Option.map_some, UInt64.ofNat_toNat]

lemma saves_optionalText (s : Option String) : Saves d (nullable text?) s (.ofText? s) := by
  cases s with
  | none => exact ⟨.null, Nat.zero_le d, rfl⟩
  | some s => exact ⟨.text s, Nat.zero_le d, rfl⟩

lemma saves_optionalFloat {y : Option Float} (h : ∀ z ∈ y, RoundTrips z) :
    Saves d (nullable float?) y ((y.map .float).getD .null) := by
  cases y with
  | none => exact ⟨.null, Nat.zero_le d, rfl⟩
  | some z =>
    have hz := saves_float (d := d) (h z rfl)
    exact ⟨hz.writable, hz.depth, congrArg (Option.map some) hz.decoded⟩

/-! ## Containers -/

/-- What decodes to each element in turn decodes to their list. -/
lemma mapM_map_of_forall {l : List γ} {f : γ → β} {g : β → Option γ}
    (h : ∀ a ∈ l, g (f a) = some a) : (l.map f).mapM g = some l := by
  induction l with
  | nil => rfl
  | cons a l ih =>
    obtain ⟨ha, hl⟩ := List.forall_mem_cons.1 h
    rw [List.map_cons, List.mapM_cons, ha, ih hl]
    rfl

lemma depth_object_le_iff {fs : List (String × Value)} :
    (Value.object fs).depth ≤ d + 1 ↔ ∀ e ∈ fs, e.2.depth ≤ d := by
  rw [Value.depth, Nat.add_le_add_iff_right, Value.depthFields_le_iff]

lemma depth_list_le_iff {l : List Value} :
    (Value.list l).depth ≤ d + 1 ↔ ∀ v ∈ l, v.depth ≤ d := by
  rw [Value.depth, Nat.add_le_add_iff_right, Value.depthItems_le_iff]

lemma saves_list {l : List γ} {f : γ → Value} {decode : Value → Option γ}
    (h : ∀ a ∈ l, Saves d decode a (f a)) : Saves (d + 1) (list? decode) l (.list (l.map f)) where
  writable := .list fun v hv => by
    obtain ⟨a, ha, rfl⟩ := List.mem_map.1 hv
    exact (h a ha).writable
  depth := depth_list_le_iff.2 fun v hv => by
    obtain ⟨a, ha, rfl⟩ := List.mem_map.1 hv
    exact (h a ha).depth
  decoded := mapM_map_of_forall fun a ha => (h a ha).decoded

lemma saves_texts (l : List String) : Saves (d + 1) texts? l (.ofTexts l) :=
  saves_list fun s _ => saves_text s

lemma saves_names (s : NameSet) : Saves (d + 1) names? s s.value where
  writable := (saves_texts (d := d) s.toList).writable
  depth := (saves_texts s.toList).depth
  decoded := by
    rw [names?, NameSet.value, (saves_texts (d := d) s.toList).decoded, Option.map_some,
      OrdSet.ofList_toList]

lemma saves_paths {s : PathSet} (h : s.Keyed) :
    Saves (d + 1) paths? s (.ofTexts (s.paths.map Path.text)) := by
  have hl : Saves (d + 1) (list? path?) s.paths (.list (s.paths.map fun p => .text p.text)) :=
    saves_list fun p _ => saves_path p
  rw [Value.ofTexts, List.map_map]
  exact ⟨hl.writable, hl.depth, by
    rw [paths?]
    change (list? path? (.list (s.paths.map fun p => .text p.text))).map _ = _
    rw [hl.decoded, Option.map_some, PathSet.ofList_paths h]⟩

lemma map?_object {m : NameMap α} {f : α → Value} (h : ∀ e ∈ m.entries, decode (f e.2) = some e.2) :
    map? decode (.object (m.entries.map fun e => (e.1, f e.2))) = some m := by
  have hmap : (m.entries.map fun e => (e.1, f e.2)).mapM
      (fun e => (decode e.2).map fun x => (e.1, x)) = some m.entries :=
    mapM_map_of_forall fun e he => by
      rw [h e he]
      rfl
  rw [map?, hmap, Option.map_some, OrdMap.ofList_entries]

lemma saves_map {m : NameMap α} {f : α → Value} (h : ∀ a ∈ m.values, Saves d decode a (f a)) :
    Saves (d + 1) (map? decode) m (NameMap.value f m) where
  writable := .object fun e he => by
    obtain ⟨a, ha, rfl⟩ := List.mem_map.1 he
    exact (h a.2 (List.mem_map_of_mem ha)).writable
  depth := depth_object_le_iff.2 fun e he => by
    obtain ⟨a, ha, rfl⟩ := List.mem_map.1 he
    exact (h a.2 (List.mem_map_of_mem ha)).depth
  decoded := map?_object fun e he => (h e.2 (List.mem_map_of_mem he)).decoded

/-- A structure is saved when its fields are. -/
lemma saves_object {fs : List (String × Value)} (h : ∀ e ∈ fs, e.2.Writable ∧ e.2.depth ≤ d)
    (hx : decode (.object fs) = some x) : Saves (d + 1) decode x (.object fs) :=
  ⟨.object fun e he => (h e he).1, depth_object_le_iff.2 fun e he => (h e he).2, hx⟩

/-! ## Plain values -/

lemma isFinite_of_writable (h : v.Writable) : v.isFinite = true := by
  have hlist {l : List Value} (ih : ∀ v ∈ l, v.isFinite = true) : Value.allFinite l = true := by
    induction l with
    | nil => rfl
    | cons v l ihl =>
      obtain ⟨hv, hl⟩ := List.forall_mem_cons.1 ih
      rw [Value.allFinite, hv, ihl hl]
      rfl
  have hfields {l : List (String × Value)} (ih : ∀ e ∈ l, e.2.isFinite = true) :
      Value.allFieldsFinite l = true := by
    induction l with
    | nil => rfl
    | cons e l ihl =>
      obtain ⟨he, hl⟩ := List.forall_mem_cons.1 ih
      rw [Value.allFieldsFinite, he, ihl hl]
      rfl
  induction h with
  | null | bool | int | text => rfl
  | float h => exact h.finite
  | list _ ih => exact hlist ih
  | object _ ih => exact hfields ih

/-- Plain values in canonical form are decoded as they are. -/
lemma manifest?_ofMap {m : NameMap Value} (hw : ∀ v ∈ m.values, v.Writable)
    (hc : ∀ v ∈ m.values, v.canonical = v) : manifest? (.ofMap m) = some m := by
  have hobject : (Value.ofMap m).Writable :=
    .object fun e he => hw e.2 (List.mem_map_of_mem he)
  have hmap : map? (fun w => some w.canonical) (.object (m.entries.map fun e => (e.1, id e.2))) =
      some m := map?_object fun e he => congrArg some (hc e.2 (List.mem_map_of_mem he))
  rw [manifest?, if_pos (isFinite_of_writable hobject), ← hmap]
  simp [Value.ofMap]

end AddonAtlas.Json
