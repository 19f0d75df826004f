import AddonAtlas.Proofs.Json.Numbers

/-!
Values read back from their text.

The text of a value on one line is read back with whatever follows it left over, as far as lists and
objects are not nested too deep; a value that is nested deeper is refused. The induction is on the
value, for every fuel that is twice the length of its text and every depth that is left, so that it
serves for the parts of lists and objects.
-/

namespace AddonAtlas

open Json

namespace Value

mutual

/-- How deep lists and objects are nested in a value, itself counted. -/
def depth : Value → Nat
  | .list items => depthItems items + 1
  | .object fields => depthFields fields + 1
  | _ => 0

def depthItems : List Value → Nat
  | [] => 0
  | v :: r => max (depth v) (depthItems r)

def depthFields : List (String × Value) → Nat
  | [] => 0
  | (_, v) :: r => max (depth v) (depthFields r)

end

/-- A value whose numbers read back: integers of 64 bits, and floats that do. -/
inductive Writable : Value → Prop
  | null : Writable .null
  | bool (b : Bool) : Writable (.bool b)
  | int {n : Int} (h : IsWord n) : Writable (.int n)
  | float {x : Float} (h : RoundTrips x) : Writable (.float x)
  | text (s : String) : Writable (.text s)
  | list {items : List Value} (h : ∀ v ∈ items, Writable v) : Writable (.list items)
  | object {fields : List (String × Value)} (h : ∀ e ∈ fields, Writable e.2) :
    Writable (.object fields)

lemma depthItems_le_iff {l : List Value} {d : Nat} : depthItems l ≤ d ↔ ∀ v ∈ l, v.depth ≤ d := by
  induction l with
  | nil => simp [depthItems]
  | cons v l ih => rw [depthItems, Nat.max_le, ih, List.forall_mem_cons]

lemma depthFields_le_iff {l : List (String × Value)} {d : Nat} :
    depthFields l ≤ d ↔ ∀ e ∈ l, e.2.depth ≤ d := by
  induction l with
  | nil => simp [depthFields]
  | cons e l ih => rw [depthFields, Nat.max_le, ih, List.forall_mem_cons]

end Value

namespace Json

/-! ## Strings -/

lemma ofDigits_hex4 : ∀ n < 32, hex4? (hex4 n) = some (n, []) := by decide

lemma hex4?_append {ds r : List Char} {n : Nat} (h : hex4? ds = some (n, [])) :
    hex4? (ds ++ r) = some (n, r) := by
  unfold hex4? at h
  split at h
  · rename_i a b c d s
    split at h
    · rename_i hhex
      obtain ⟨rfl, rfl⟩ := Prod.mk.inj (Option.some.inj h)
      exact if_pos hhex
    · cases h
  · cases h

/-- Reading steps past each character. -/
lemma inside_escape (n : Nat) (acc : List Char) (c : Char) (r : List Char) :
    inside (n + 1) acc (escape c ++ r) = inside n (c :: acc) r := by
  unfold escape
  split
  · subst c
    rfl
  split
  · subst c
    rfl
  split
  · subst c
    rfl
  split
  · subst c
    rfl
  split
  · subst c
    rfl
  split
  · subst c
    rfl
  split
  · subst c
    rfl
  split
  · rename_i hc
    have hhex := hex4?_append (r := r) (ofDigits_hex4 c.toNat hc)
    have hnot : ¬(0xD800 ≤ c.toNat) ∧ ¬(0xDC00 ≤ c.toNat) := ⟨by omega, by omega⟩
    have hesc : escaped? ('u' :: (hex4 c.toNat ++ r)) = some (c, r) := by
      simp [escaped?, hhex, hnot.1, hnot.2]
    rw [List.cons_append, List.cons_append, inside, if_neg (by decide), if_pos rfl, hesc]
  · rename_i hquote hslash _ _ _ _ _ hcontrol
    rw [List.singleton_append, inside, if_neg hquote, if_neg hslash, if_neg hcontrol]

/-- The inside of a string is read up to its closing quote. -/
lemma inside_flatMap_escape (s : List Char) (r : List Char) :
    ∀ n acc, s.length < n →
      inside n acc (s.flatMap escape ++ '"' :: r) = some (String.ofList (acc.reverse ++ s), r) := by
  induction s with
  | nil =>
    intro n acc hn
    cases n with
    | zero => cases hn
    | succ n => simp [inside]
  | cons c s ih =>
    intro n acc hn
    cases n with
    | zero => cases hn
    | succ n =>
      rw [List.flatMap_cons, List.append_assoc, inside_escape, ih n (c :: acc) (by simpa using hn)]
      simp

lemma length_escape_pos (c : Char) : 0 < (escape c).length := by
  unfold escape
  repeat' split
  all_goals simp

lemma length_le_flatMap_escape (s : List Char) : s.length ≤ (s.flatMap escape).length := by
  induction s with
  | nil => simp
  | cons c s ih =>
    have := length_escape_pos c
    rw [List.flatMap_cons, List.length_append, List.length_cons]
    omega

/-- The text of a string, behind its opening quote. -/
lemma toList_quoted (s : String) : (quoted s).toList = '"' :: (s.toList.flatMap escape ++ ['"']) :=
  String.toList_ofList

lemma quoted_append (s : String) (r : List Char) : ∃ t, (quoted s).toList ++ r = '"' :: t := by
  rw [toList_quoted]
  exact ⟨_, rfl⟩

lemma inside_quoted {s : String} {r t : List Char} (h : (quoted s).toList ++ r = '"' :: t) :
    inside (t.length + 1) [] t = some (s, r) := by
  rw [toList_quoted, List.cons_append, List.append_assoc] at h
  obtain rfl := (List.cons.inj h).2
  have hlen := length_le_flatMap_escape s.toList
  rw [List.singleton_append, inside_flatMap_escape]
  · simp
  · simp only [List.length_append, List.length_cons]
    omega

/-! ## Steps of the reader -/

section Steps

variable {fuel d : Nat} {c : Char} {r t : List Char}

lemma skipSpace_cons (h : isSpace c = false) : skipSpace (c :: r) = c :: r := by
  rw [skipSpace, List.dropWhile_cons, h]
  rfl

lemma value_quote (h : inside (r.length + 1) [] r = some (s, t)) :
    value (fuel + 1) d ('"' :: r) = some (.text s, t) := by
  rw [value, skipSpace_cons (by decide)]
  simp [h]

lemma value_bracket_close : value (fuel + 1) (d + 1) ('[' :: ']' :: r) = some (.list [], r) := by
  rw [value, skipSpace_cons (by decide)]
  simp [skipSpace_cons (c := ']') (by decide)]

lemma value_bracket (hspace : isSpace c = false) (hc : c ≠ ']') :
    value (fuel + 1) (d + 1) ('[' :: c :: r) =
      (items fuel d [] (c :: r)).map fun (vs, t) => (.list vs, t) := by
  rw [value, skipSpace_cons (by decide)]
  simp [skipSpace_cons hspace, hc]

lemma value_brace_close :
    value (fuel + 1) (d + 1) ('\x7b' :: '\x7d' :: r) = some (.object [], r) := by
  rw [value, skipSpace_cons (by decide)]
  simp [skipSpace_cons (c := '\x7d') (by decide)]

lemma value_brace (hspace : isSpace c = false) (hc : c ≠ '\x7d') :
    value (fuel + 1) (d + 1) ('\x7b' :: c :: r) =
      (fields fuel d [] (c :: r)).map fun (fs, t) => (.object fs, t) := by
  rw [value, skipSpace_cons (by decide)]
  simp [skipSpace_cons hspace, hc]

lemma value_deep (hc : c = '[' ∨ c = '\x7b') : value (fuel + 1) 0 (c :: r) = none := by
  rcases hc with rfl | rfl <;> rw [value, skipSpace_cons (by decide)] <;> rfl

/-- What a number begins with is no character of another kind. -/
lemma ne_of_number (hc : c = '-' ∨ c.isDigit = true) {x : Char} (hminus : x ≠ '-')
    (hdigit : x.isDigit = false) : c ≠ x := by
  rintro rfl
  rcases hc with hc | hc
  · exact hminus hc
  · rw [hdigit] at hc
    cases hc

lemma isSpace_of_number (hc : c = '-' ∨ c.isDigit = true) : isSpace c = false := by
  simp [isSpace, ne_of_number hc (x := ' ') (by decide) rfl,
    ne_of_number hc (x := '\n') (by decide) rfl, ne_of_number hc (x := '\t') (by decide) rfl,
    ne_of_number hc (x := '\r') (by decide) rfl]

lemma value_number (hc : c = '-' ∨ c.isDigit = true) :
    value (fuel + 1) d (c :: r) = number (c :: r) := by
  rw [value, skipSpace_cons (isSpace_of_number hc)]
  simp [ne_of_number hc (x := '\x7b') (by decide) rfl, ne_of_number hc (x := '[') (by decide) rfl,
    ne_of_number hc (x := '"') (by decide) rfl, ne_of_number hc (x := 't') (by decide) rfl,
    ne_of_number hc (x := 'f') (by decide) rfl, ne_of_number hc (x := 'n') (by decide) rfl]

variable {cs : List Char} {acc : List Value} {accFields : List (String × Value)} {v : Value}
  {k : String}

lemma items_none (h : value fuel d cs = none) : items (fuel + 1) d acc cs = none := by
  rw [items, h]

lemma items_comma (h : value fuel d cs = some (v, ',' :: r)) :
    items (fuel + 1) d acc cs = items fuel d (v :: acc) r := by
  rw [items, h]
  simp [skipSpace_cons (c := ',') (by decide)]

lemma items_bracket (h : value fuel d cs = some (v, ']' :: r)) :
    items (fuel + 1) d acc cs = some ((v :: acc).reverse, r) := by
  rw [items, h]
  simp [skipSpace_cons (c := ']') (by decide)]

lemma fields_none (h : value fuel d cs = none) :
    fields (fuel + 1) d accFields ((quoted k).toList ++ ':' :: cs) = none := by
  obtain ⟨t, ht⟩ := quoted_append k (':' :: cs)
  rw [ht, fields, skipSpace_cons (by decide)]
  simp [inside_quoted ht, skipSpace_cons (c := ':') (by decide), h]

lemma fields_comma (h : value fuel d cs = some (v, ',' :: r)) :
    fields (fuel + 1) d accFields ((quoted k).toList ++ ':' :: cs) =
      fields fuel d ((k, v) :: accFields) r := by
  obtain ⟨t, ht⟩ := quoted_append k (':' :: cs)
  rw [ht, fields, skipSpace_cons (by decide)]
  simp [inside_quoted ht, skipSpace_cons (c := ':') (by decide), h,
    skipSpace_cons (c := ',') (by decide)]

lemma fields_brace (h : value fuel d cs = some (v, '\x7d' :: r)) :
    fields (fuel + 1) d accFields ((quoted k).toList ++ ':' :: cs) =
      some (((k, v) :: accFields).reverse, r) := by
  obtain ⟨t, ht⟩ := quoted_append k (':' :: cs)
  rw [ht, fields, skipSpace_cons (by decide)]
  simp [inside_quoted ht, skipSpace_cons (c := ':') (by decide), h,
    skipSpace_cons (c := '\x7d') (by decide)]

end Steps

/-! ## Values -/

/-- What the text of a value begins with: no blank space and no closing bracket. -/
lemma head_compact {v : Value} (h : v.Writable) :
    ∃ c r, (compact v).toList = c :: r ∧ isSpace c = false ∧ c ≠ ']' := by
  have hnumber {cs : List Char} {v : Value} (h : number cs = some (v, [])) :
      ∃ c r, cs = c :: r ∧ isSpace c = false ∧ c ≠ ']' := by
    obtain ⟨c, r, hcs, hc⟩ := head_of_number h
    exact ⟨c, r, hcs, isSpace_of_number hc, ne_of_number hc (by decide) rfl⟩
  cases h with
  | null => exact ⟨'n', _, rfl, by decide, by decide⟩
  | bool b => cases b <;> exact ⟨_, _, rfl, by decide, by decide⟩
  | int h => exact hnumber (number_scalar_int h)
  | float h => exact hnumber h.reads
  | text s => exact ⟨'"', _, toList_quoted s, by decide, by decide⟩
  | list h =>
    rw [compact, String.toList_append, String.toList_append]
    exact ⟨'[', _, rfl, by decide, by decide⟩
  | object h =>
    rw [compact, String.toList_append, String.toList_append]
    exact ⟨'\x7b', _, rfl, by decide, by decide⟩

/-- A value reads back, at every depth that it is not nested deeper than. -/
def ReadsBack (v : Value) : Prop :=
  ∀ fuel d r, Ends r → 2 * (compact v).toList.length ≤ fuel →
    value fuel d ((compact v).toList ++ r) = if v.depth ≤ d then some (v, r) else none

/-- The text of items between their brackets. -/
def itemsText (l : List Value) : List Char := (",".intercalate (compactItems l)).toList

def fieldsText (l : List (String × Value)) : List Char :=
  (",".intercalate (compactFields l)).toList

lemma itemsText_singleton (v : Value) : itemsText [v] = (compact v).toList := by
  simp [itemsText, compactItems]

lemma itemsText_cons (v w : Value) (l : List Value) :
    itemsText (v :: w :: l) = (compact v).toList ++ ',' :: itemsText (w :: l) := by
  simp [itemsText, compactItems]

lemma fieldsText_singleton (e : String × Value) :
    fieldsText [e] = (quoted e.1).toList ++ ':' :: (compact e.2).toList := by
  simp [fieldsText, compactFields]

lemma fieldsText_cons (e f : String × Value) (l : List (String × Value)) :
    fieldsText (e :: f :: l) =
      (quoted e.1).toList ++ ':' :: ((compact e.2).toList ++ ',' :: fieldsText (f :: l)) := by
  simp [fieldsText, compactFields]

/-- Items read back one after the other. -/
lemma items_itemsText {v : Value} {l : List Value} (h : ∀ w ∈ v :: l, ReadsBack w) :
    ∀ fuel d acc r, 2 * (itemsText (v :: l)).length + 1 ≤ fuel →
      items fuel d acc (itemsText (v :: l) ++ ']' :: r) =
        if Value.depthItems (v :: l) ≤ d then some (acc.reverse ++ v :: l, r) else none := by
  induction l generalizing v with
  | nil =>
    intro fuel d acc r hfuel
    obtain ⟨fuel, rfl⟩ := Nat.exists_eq_succ_of_ne_zero (show fuel ≠ 0 by omega)
    rw [itemsText_singleton] at hfuel ⊢
    have hv := h v List.mem_cons_self fuel d (']' :: r) ends_bracket (by omega)
    have hdepth : Value.depthItems [v] = v.depth := Nat.max_zero _
    rw [hdepth]
    by_cases hd : v.depth ≤ d
    · rw [if_pos hd] at hv ⊢
      rw [items_bracket hv, List.reverse_cons]
    · rw [if_neg hd] at hv ⊢
      exact items_none hv
  | cons w l ih =>
    intro fuel d acc r hfuel
    obtain ⟨fuel, rfl⟩ := Nat.exists_eq_succ_of_ne_zero (show fuel ≠ 0 by omega)
    rw [itemsText_cons, List.length_append, List.length_cons] at hfuel
    rw [itemsText_cons, List.append_assoc, List.cons_append]
    have hv := h v List.mem_cons_self fuel d (',' :: (itemsText (w :: l) ++ ']' :: r)) ends_comma
        (by omega)
    have hrest := ih (fun x hx => h x (List.mem_cons_of_mem v hx)) fuel d (v :: acc) r (by omega)
    have hdepth : Value.depthItems (v :: w :: l) ≤ d ↔
        v.depth ≤ d ∧ Value.depthItems (w :: l) ≤ d := Nat.max_le
    simp only [hdepth]
    by_cases hd : v.depth ≤ d
    · rw [if_pos hd] at hv
      rw [items_comma hv, hrest]
      simp [hd]
    · rw [if_neg hd] at hv
      rw [items_none hv, if_neg fun hboth => hd hboth.1]

/-- Fields read back one after the other. -/
lemma fields_fieldsText {e : String × Value} {l : List (String × Value)}
    (h : ∀ f ∈ e :: l, ReadsBack f.2) :
    ∀ fuel d acc r, 2 * (fieldsText (e :: l)).length + 1 ≤ fuel →
      fields fuel d acc (fieldsText (e :: l) ++ '\x7d' :: r) =
        if Value.depthFields (e :: l) ≤ d then some (acc.reverse ++ e :: l, r) else none := by
  induction l generalizing e with
  | nil =>
    intro fuel d acc r hfuel
    obtain ⟨fuel, rfl⟩ := Nat.exists_eq_succ_of_ne_zero (show fuel ≠ 0 by omega)
    rw [fieldsText_singleton, List.length_append, List.length_cons] at hfuel
    rw [fieldsText_singleton, List.append_assoc, List.cons_append]
    have hv := h e List.mem_cons_self fuel d ('\x7d' :: r) ends_brace (by omega)
    have hdepth : Value.depthFields [e] = e.2.depth := Nat.max_zero _
    rw [hdepth]
    by_cases hd : e.2.depth ≤ d
    · rw [if_pos hd] at hv ⊢
      rw [fields_brace hv, List.reverse_cons]
    · rw [if_neg hd] at hv ⊢
      exact fields_none hv
  | cons f l ih =>
    intro fuel d acc r hfuel
    obtain ⟨fuel, rfl⟩ := Nat.exists_eq_succ_of_ne_zero (show fuel ≠ 0 by omega)
    rw [fieldsText_cons, List.length_append, List.length_cons, List.length_append,
      List.length_cons] at hfuel
    rw [fieldsText_cons, List.append_assoc, List.cons_append, List.append_assoc, List.cons_append]
    have hv :=
      h e List.mem_cons_self fuel d (',' :: (fieldsText (f :: l) ++ '\x7d' :: r)) ends_comma
        (by omega)
    have hrest := ih (fun x hx => h x (List.mem_cons_of_mem e hx)) fuel d (e :: acc) r (by omega)
    have hdepth : Value.depthFields (e :: f :: l) ≤ d ↔
        e.2.depth ≤ d ∧ Value.depthFields (f :: l) ≤ d := Nat.max_le
    simp only [hdepth]
    by_cases hd : e.2.depth ≤ d
    · rw [if_pos hd] at hv
      rw [fields_comma hv, hrest]
      simp [hd]
    · rw [if_neg hd] at hv
      rw [fields_none hv, if_neg fun hboth => hd hboth.1]

lemma readsBack_number {v : Value} (h : number (compact v).toList = some (v, []))
    (hv : v.depth = 0) : ReadsBack v := by
  intro fuel d r hr hfuel
  obtain ⟨c, s, hcs, hc⟩ := head_of_number h
  rw [hcs] at hfuel
  obtain ⟨fuel, rfl⟩ := Nat.exists_eq_succ_of_ne_zero (show fuel ≠ 0 by simp at hfuel; omega)
  have happend := number_append h hr
  rw [hcs] at happend ⊢
  rw [List.cons_append] at happend ⊢
  rw [value_number hc, happend, hv, if_pos (Nat.zero_le d), List.nil_append]

lemma readsBack_list {l : List Value} (hw : ∀ v ∈ l, v.Writable) (h : ∀ v ∈ l, ReadsBack v) :
    ReadsBack (.list l) := by
  intro fuel d r hr hfuel
  have htext : (compact (.list l)).toList = '[' :: (itemsText l ++ [']']) := by
    simp [compact, itemsText]
  rw [htext] at hfuel ⊢
  simp only [List.length_cons, List.length_append, List.length_nil] at hfuel
  obtain ⟨fuel, rfl⟩ := Nat.exists_eq_succ_of_ne_zero (show fuel ≠ 0 by omega)
  rw [List.cons_append, List.append_assoc, List.singleton_append]
  cases d with
  | zero => rw [value_deep (.inl rfl), if_neg (by simp [Value.depth])]
  | succ d =>
    cases l with
    | nil => exact value_bracket_close
    | cons v l =>
      have hitems := items_itemsText h fuel d [] r (by omega)
      obtain ⟨c, s, hcs, hspace, hc⟩ := head_compact (hw v List.mem_cons_self)
      obtain ⟨t, ht⟩ : ∃ t, itemsText (v :: l) = c :: t := by
        cases l with
        | nil => exact ⟨s, by rw [itemsText_singleton, hcs]⟩
        | cons w l => exact ⟨_, by rw [itemsText_cons, hcs, List.cons_append]⟩
      rw [ht, List.cons_append] at hitems ⊢
      rw [value_bracket hspace hc, hitems]
      simp only [Value.depth, Nat.add_le_add_iff_right]
      split <;> rfl

lemma readsBack_object {l : List (String × Value)} (h : ∀ e ∈ l, ReadsBack e.2) :
    ReadsBack (.object l) := by
  intro fuel d r hr hfuel
  have htext : (compact (.object l)).toList = '\x7b' :: (fieldsText l ++ ['\x7d']) := by
    simp [compact, fieldsText]
  rw [htext] at hfuel ⊢
  simp only [List.length_cons, List.length_append, List.length_nil] at hfuel
  obtain ⟨fuel, rfl⟩ := Nat.exists_eq_succ_of_ne_zero (show fuel ≠ 0 by omega)
  rw [List.cons_append, List.append_assoc, List.singleton_append]
  cases d with
  | zero => rw [value_deep (.inr rfl), if_neg (by simp [Value.depth])]
  | succ d =>
    cases l with
    | nil => exact value_brace_close
    | cons e l =>
      have hfields := fields_fieldsText h fuel d [] r (by omega)
      obtain ⟨t, ht⟩ : ∃ t, fieldsText (e :: l) = '"' :: t := by
        cases l with
        | nil => exact fieldsText_singleton e ▸ quoted_append e.1 _
        | cons f l => exact fieldsText_cons e f l ▸ quoted_append e.1 _
      rw [ht, List.cons_append] at hfields ⊢
      rw [value_brace (by decide) (by decide), hfields]
      simp only [Value.depth, Nat.add_le_add_iff_right]
      split <;> rfl

lemma readsBack_of_writable {v : Value} (h : v.Writable) : ReadsBack v := by
  induction h with
  | null =>
    intro fuel d r hr hfuel
    obtain ⟨fuel, rfl⟩ := Nat.exists_eq_succ_of_ne_zero (show fuel ≠ 0 from fun h => by
      rw [h] at hfuel
      exact absurd hfuel (by decide))
    rfl
  | bool b =>
    intro fuel d r hr hfuel
    obtain ⟨fuel, rfl⟩ := Nat.exists_eq_succ_of_ne_zero (show fuel ≠ 0 from fun h => by
      rw [h] at hfuel
      cases b <;> exact absurd hfuel (by decide))
    cases b <;> rfl
  | int h => exact readsBack_number (number_scalar_int h) rfl
  | float h => exact readsBack_number h.reads rfl
  | text s =>
    intro fuel d r hr hfuel
    obtain ⟨t, ht⟩ := quoted_append s r
    obtain ⟨fuel, rfl⟩ := Nat.exists_eq_succ_of_ne_zero (show fuel ≠ 0 from fun h => by
      have hlen := congrArg List.length (toList_quoted s)
      change 2 * (quoted s).toList.length ≤ fuel at hfuel
      rw [h, hlen] at hfuel
      simp at hfuel)
    change value (fuel + 1) d ((quoted s).toList ++ r) = some (.text s, r)
    rw [ht, value_quote (inside_quoted ht)]
  | list hw ih => exact readsBack_list hw ih
  | object _ ih => exact readsBack_object ih

/-- **Round trip of values.** The text of a value on one line reads back as the value if lists and
objects are nested in it as deep as the reader goes at most, and is refused else. -/
lemma read?_compact {v : Value} (h : v.Writable) :
    read? (compact v) = if v.depth ≤ deepest then some v else none := by
  have hread := readsBack_of_writable h (2 * (compact v).toList.length + 2) deepest [] ends_nil
    (by omega)
  rw [List.append_nil] at hread
  rw [read?]
  simp only [hread]
  split_ifs <;> rfl

end Json

end AddonAtlas
