import AddonAtlas.Files.Path
import AddonAtlas.Proofs.Text.Split

/-!
Paths by their components.

Joining adds the components of what is joined and the parent lacks the last one. What is written
between the slashes is either a component or a filler, so all that a spelling has beyond its
components is whether it ends in a filler.
-/

namespace AddonAtlas

/-- A text that can be the name of a file or of a directory. -/
def IsName (s : String) : Prop := s ≠ "" ∧ s ≠ "." ∧ s ≠ ".." ∧ '/' ∉ s.toList

instance : DecidablePred IsName := fun s =>
  inferInstanceAs (Decidable (s ≠ "" ∧ s ≠ "." ∧ s ≠ ".." ∧ '/' ∉ s.toList))

namespace Path

variable {p q : Path} {s t a b n : String} {l r : List String}

/-! ## Segments -/

lemma segments_ne_nil (p : Path) : p.segments ≠ [] := Text.splitOn_ne_nil p.text '/'

@[simp] lemma segments_empty : (Path.mk "").segments = [""] :=
  Text.splitOn_of_not_mem (c := '/') (by decide)

lemma segments_append (a b : String) :
    (Path.mk (a ++ "/" ++ b)).segments = (Path.mk a).segments ++ (Path.mk b).segments :=
  Text.splitOn_append a b '/'

lemma segments_slash : (Path.mk "/").segments = ["", ""] := by
  simpa using segments_append "" ""

lemma head?_segments_append (a b : String) :
    (Path.mk (a ++ "/" ++ b)).segments.head? = (Path.mk a).segments.head? := by
  rw [segments_append, List.head?_append_of_ne_nil _ (segments_ne_nil _)]

/-- An absolute path begins with an empty segment. -/
lemma head?_segments_of_isAbsolute (h : p.isAbsolute = true) : p.segments.head? = some "" := by
  obtain ⟨cs, hcs⟩ : ∃ cs, p.text.toList = '/' :: cs := by
    simpa [isAbsolute, List.head?_eq_some_iff] using h
  have htext : p.text = "" ++ "/" ++ String.ofList cs := by
    rw [← String.toList_inj, hcs]
    simp
  have happ := head?_segments_append "" (String.ofList cs)
  rw [← htext, segments_empty] at happ
  exact happ

lemma segments_of_not_mem (h : '/' ∉ t.toList) : (Path.mk t).segments = [t] :=
  Text.splitOn_of_not_mem h

lemma not_mem_of_mem_segments (h : s ∈ p.segments) : '/' ∉ s.toList :=
  (Text.pieces_of_splitOn_string (c := '/') h).1

lemma subset_of_mem_segments (h : s ∈ p.segments) : s.toList ⊆ p.text.toList :=
  (Text.pieces_of_splitOn_string (c := '/') h).2

lemma isName_of_mem_segments (h : s ∈ p.segments) (hfill : isFiller s = false) (hup : s ≠ "..") :
    IsName s := by
  have hs := not_mem_of_mem_segments h
  simp only [isFiller, Bool.or_eq_false_iff, decide_eq_false_iff_not] at hfill
  exact ⟨hfill.1, hfill.2, hup, hs⟩

lemma isFiller_of_isName (h : IsName n) : isFiller n = false := by
  simp [isFiller, h.1, h.2.1]

lemma segments_of_isName (h : IsName n) : (Path.mk n).segments = [n] := segments_of_not_mem h.2.2.2

/-! ## Steps

The components apart from a leading root or dot. -/

/-- The names and the steps up of a path. -/
def steps (p : Path) : List Component := inner p.segments

/-- The root, or a leading dot. -/
def lead (p : Path) : List Component :=
  if p.isAbsolute then [.root] else if p.segments.head? = some "." then [.here] else []

/-- Whether a path ends in a slash, or in a dot behind one. -/
def trails (p : Path) : Bool := p.segments.getLast?.any isFiller

@[simp] lemma inner_append (l r : List String) : inner (l ++ r) = inner l ++ inner r :=
  List.filterMap_append

lemma inner_cons_filler (h : isFiller s = true) (l : List String) : inner (s :: l) = inner l := by
  simp only [isFiller, Bool.or_eq_true, decide_eq_true_eq] at h
  rcases h with rfl | rfl <;> rfl

lemma inner_name (h : IsName n) : inner [n] = [.name n] := by
  simp [inner, h.1, h.2.1, h.2.2.1]

lemma inner_cons_of_not_filler (h : isFiller s = false) (l : List String) :
    inner (s :: l) = (if s = ".." then .up else .name s) :: inner l := by
  simp only [isFiller, Bool.or_eq_false_iff, decide_eq_false_iff_not] at h
  by_cases hup : s = ".."
  · subst hup
    rfl
  · simp [inner, h.1, h.2, hup]

lemma components_eq (p : Path) : p.components = p.lead ++ p.steps := by
  unfold components lead steps
  cases hseg : p.segments with
  | nil => exact absurd hseg p.segments_ne_nil
  | cons s r =>
    by_cases habs : p.isAbsolute = true
    · have hs : s = "" := by
        have hhead := head?_segments_of_isAbsolute habs
        rw [hseg] at hhead
        exact Option.some.inj hhead
      subst hs
      simp [habs, inner_cons_filler (s := "") rfl]
    · by_cases hdot : s = "."
      · subst hdot
        simp [habs, inner_cons_filler (s := ".") rfl]
      · simp [habs, hdot]

lemma isAbsolute_iff : p.isAbsolute = true ↔ p.lead = [.root] := by
  unfold lead
  split_ifs with habs hdot <;> simp [habs]

lemma getLast?_segments (h : p.trails = false) :
    ∃ s, p.segments.getLast? = some s ∧ isFiller s = false := by
  cases hlast : p.segments.getLast? with
  | none => exact absurd (List.getLast?_eq_none_iff.1 hlast) p.segments_ne_nil
  | some s =>
    rw [trails, hlast] at h
    exact ⟨s, rfl, h⟩

/-- The last component is the last segment, unless that is a filler. -/
lemma getLast?_components (h : p.segments.getLast? = some s) (hfill : isFiller s = false) :
    p.components.getLast? = some (if s = ".." then .up else .name s) := by
  obtain ⟨l, hl⟩ := List.getLast?_eq_some_iff.1 h
  have hinner := inner_cons_of_not_filler hfill []
  rw [components_eq, steps, hl, inner_append, hinner, ← List.append_assoc]
  exact List.getLast?_concat

/-! ## Keys -/

lemma mem_steps {c : Component} (h : c ∈ p.steps) : c ≠ .root ∧ c ≠ .here := by
  obtain ⟨s, -, hs⟩ := List.mem_filterMap.1 h
  split at hs
  · cases hs
  · split at hs <;> cases hs <;> exact ⟨by simp, by simp⟩

/-- Equal keys are equal components. -/
lemma components_of_key (h : p.key = q.key) : p.components = q.components := by
  refine List.map_injective_iff.2 ?_ h
  intro c d hcd
  -- the first characters of the keys tell the kinds of components apart
  have hhead := congrArg (fun s : String => s.toList.head?) hcd
  cases c with
  | name s => cases d with
    | name t => simpa using hcd
    | _ => simp at hhead
  | _ => cases d with
    | name t => simp at hhead
    | _ => first | rfl | simp at hcd

lemma key_of_components (h : p.components = q.components) : p.key = q.key := by
  rw [key, key, h]

/-- The lead of a path is none of its steps, so that components tell where the steps begin. -/
lemma eq_of_lead_append {l r : List Component} (h : p.lead ++ l = q.lead ++ r)
    (hl : ∀ c ∈ l, c ≠ .root ∧ c ≠ .here) (hr : ∀ c ∈ r, c ≠ .root ∧ c ≠ .here) :
    p.lead = q.lead ∧ l = r := by
  have hlead : ∀ o : Path, o.lead = [.root] ∨ o.lead = [.here] ∨ o.lead = [] := by
    intro o
    unfold lead
    split_ifs <;> simp
  rcases hlead p with h1 | h1 | h1 <;> rcases hlead q with h2 | h2 | h2 <;>
    rw [h1, h2] at h ⊢ <;>
    simp only [List.cons_append, List.nil_append, List.cons.injEq, reduceCtorEq, false_and] at h
  · exact ⟨rfl, h.2⟩
  · exact absurd rfl (hr .root (h ▸ List.mem_cons_self)).1
  · exact ⟨rfl, h.2⟩
  · exact absurd rfl (hr .here (h ▸ List.mem_cons_self)).2
  · exact absurd rfl (hl .root (h ▸ List.mem_cons_self)).1
  · exact absurd rfl (hl .here (h ▸ List.mem_cons_self)).2
  · exact ⟨rfl, h⟩

lemma lead_steps_of_key (h : p.key = q.key) : p.lead = q.lead ∧ p.steps = q.steps := by
  have h := components_of_key h
  rw [components_eq, components_eq] at h
  exact eq_of_lead_append h (fun _ => mem_steps) (fun _ => mem_steps)

/-! ## Joining -/

lemma isAbsolute_append (h : a ≠ "") : (Path.mk (a ++ b)).isAbsolute = (Path.mk a).isAbsolute := by
  obtain ⟨c, cs, hcs⟩ := List.exists_cons_of_ne_nil fun hl => h (String.toList_inj.1 hl)
  simp [isAbsolute, hcs]

lemma lead_append (h : a ≠ "") (b : String) :
    (Path.mk (a ++ "/" ++ b)).lead = (Path.mk a).lead := by
  rw [lead, lead, head?_segments_append, String.append_assoc, isAbsolute_append h]

lemma lead_append_slash (a b c : String) :
    (Path.mk (a ++ "/" ++ b)).lead = (Path.mk (a ++ "/" ++ c)).lead := by
  have hne : a ++ "/" ≠ "" := by
    intro h
    simpa using congrArg String.length h
  rw [lead, lead, head?_segments_append, head?_segments_append, isAbsolute_append hne,
    isAbsolute_append hne]

lemma steps_append (a b : String) :
    (Path.mk (a ++ "/" ++ b)).steps = (Path.mk a).steps ++ (Path.mk b).steps := by
  rw [steps, segments_append, inner_append]
  rfl

lemma trails_append (a b : String) : (Path.mk (a ++ "/" ++ b)).trails = (Path.mk b).trails := by
  rw [trails, segments_append, List.getLast?_append_of_ne_nil _ (segments_ne_nil _)]
  rfl

@[simp] lemma steps_empty : (Path.mk "").steps = [] := by
  simp [steps, inner]

@[simp] lemma components_empty : (Path.mk "").components = [] := by
  rw [components_eq, steps_empty]
  simp [lead, isAbsolute]

/-- The first segment of a relative path is written. -/
lemma exists_segments_cons (hp : p.text ≠ "") (habs : p.isAbsolute = false) :
    ∃ s l, p.segments = s :: l ∧ s ≠ "" := by
  obtain ⟨c, cs, hcs⟩ := List.exists_cons_of_ne_nil fun hl => hp (String.toList_inj.1 hl)
  have hslash : c ≠ '/' := fun hc => by simp [isAbsolute, hcs, hc] at habs
  obtain ⟨first, rest, hrest⟩ := List.exists_cons_of_ne_nil (List.splitOn_ne_nil '/' cs)
  refine ⟨String.ofList (c :: first), rest.map String.ofList, ?_, by simp⟩
  have hsplit : p.segments = (p.text.toList.splitOn '/').map String.ofList :=
    Text.splitOn_eq p.text '/'
  rw [hsplit, hcs, List.splitOn_cons_eq_if_modifyHead, if_neg (by simpa using hslash), hrest]
  rfl

/-- The first segment of a path is its first component. -/
lemma exists_components_cons (hp : p.text ≠ "") :
    ∃ s l c, p.segments = s :: l ∧ p.components = c :: inner l := by
  obtain ⟨s, l, hseg⟩ := List.exists_cons_of_ne_nil p.segments_ne_nil
  cases habs : p.isAbsolute with
  | true => exact ⟨s, l, .root, hseg, by simp [components, hseg, habs]⟩
  | false =>
    obtain ⟨s', l', hseg', hs⟩ := exists_segments_cons hp habs
    obtain ⟨rfl, rfl⟩ := List.cons.inj (hseg.symm.trans hseg')
    by_cases hdot : s = "."
    · exact ⟨s, l, .here, hseg, by simp [components, hseg, habs, hdot]⟩
    · refine ⟨s, l, if s = ".." then .up else .name s, hseg, ?_⟩
      rw [components, hseg, ← inner_cons_of_not_filler (by simp [isFiller, hs, hdot]) l]
      simp [habs, hdot]

/-- Only the empty text has no components. -/
lemma text_eq_empty_of_components (h : p.components = []) : p.text = "" := by
  by_contra hne
  obtain ⟨s, l, c, -, hcomps⟩ := exists_components_cons hne
  rw [h] at hcomps
  cases hcomps

/-- What joining a relative path writes: behind a path that ends in a slash no further one. -/
lemma join_cases (p : Path) (ht : (Path.mk t).isAbsolute = false) :
    p.text = "" ∧ p.join t = ⟨t⟩ ∨
    (∃ a, p.text = a ++ "/" ++ "" ∧ p.join t = ⟨a ++ "/" ++ t⟩) ∨
    p.text ≠ "" ∧ p.join t = ⟨p.text ++ "/" ++ t⟩ := by
  have ht' : (t.toList.head? == some '/') = false := ht
  unfold join
  by_cases hempty : p.text = ""
  · exact .inl ⟨hempty, by simp [hempty]⟩
  · have hne : p.text.isEmpty = false := by simpa using hempty
    by_cases hslash : p.text.toList.getLast? = some '/'
    · obtain ⟨cs, hcs⟩ := List.getLast?_eq_some_iff.1 hslash
      have htext : p.text = String.ofList cs ++ "/" ++ "" := by
        rw [← String.toList_inj, hcs]
        simp
      refine .inr (.inl ⟨String.ofList cs, htext, ?_⟩)
      rw [if_neg (by simp [ht', hne]), if_pos (by simp [hslash])]
      simp [htext]
    · refine .inr (.inr ⟨hempty, ?_⟩)
      rw [if_neg (by simp [ht', hne]), if_neg (by simpa using hslash)]

lemma text_join_ne (h : p.text ≠ "" ∨ t ≠ "") : (p.join t).text ≠ "" := by
  unfold join
  split
  · rename_i hstart
    rintro (rfl : t = "")
    simp_all
  · split <;> simp_all

lemma steps_join (p : Path) (ht : (Path.mk t).isAbsolute = false) :
    (p.join t).steps = p.steps ++ (Path.mk t).steps := by
  rcases join_cases p ht with ⟨hp, h⟩ | ⟨a, hp, h⟩ | ⟨-, h⟩
  · obtain rfl : p = ⟨""⟩ := congrArg Path.mk hp
    rw [h, steps_empty, List.nil_append]
  · obtain rfl : p = ⟨a ++ "/" ++ ""⟩ := congrArg Path.mk hp
    rw [h, steps_append, steps_append, steps_empty, List.append_nil]
  · rw [h, steps_append]

lemma lead_join (ht : (Path.mk t).isAbsolute = false) (hp : p.text ≠ "") :
    (p.join t).lead = p.lead := by
  rcases join_cases p ht with ⟨hempty, -⟩ | ⟨a, hslash, h⟩ | ⟨-, h⟩
  · exact absurd hempty hp
  · obtain rfl : p = ⟨a ++ "/" ++ ""⟩ := congrArg Path.mk hslash
    rw [h, lead_append_slash a t ""]
  · rw [h, lead_append hp]

/-- The components of a joined path: those of the directory, then the steps of what is joined. -/
lemma components_join (p : Path) (ht : (Path.mk t).isAbsolute = false)
    (hdot : (Path.mk t).lead = []) :
    (p.join t).components = p.components ++ (Path.mk t).steps := by
  by_cases hp : p.text = ""
  · obtain rfl : p = ⟨""⟩ := congrArg Path.mk hp
    have hjoin : (Path.mk "").join t = ⟨t⟩ := by simp [join]
    rw [hjoin, components_eq, hdot, components_empty]
  · rw [components_eq, lead_join ht hp, steps_join p ht, components_eq p, List.append_assoc]

lemma trails_join (p : Path) (ht : (Path.mk t).isAbsolute = false) :
    (p.join t).trails = (Path.mk t).trails := by
  rcases join_cases p ht with ⟨-, h⟩ | ⟨a, -, h⟩ | ⟨-, h⟩ <;> rw [h]
  · exact trails_append a t
  · exact trails_append p.text t

lemma isAbsolute_of_isName (h : IsName n) : (Path.mk n).isAbsolute = false := by
  rw [isAbsolute, beq_eq_false_iff_ne]
  exact fun hhead => h.2.2.2 (List.mem_of_head? hhead)

lemma steps_of_isName (h : IsName n) : (Path.mk n).steps = [.name n] := by
  rw [steps, segments_of_isName h, inner_name h]

lemma lead_of_isName (h : IsName n) : (Path.mk n).lead = [] := by
  simp [lead, isAbsolute_of_isName h, segments_of_isName h, h.2.1]

lemma components_of_isName (h : IsName n) : (Path.mk n).components = [.name n] := by
  rw [components_eq, steps_of_isName h, lead_of_isName h, List.nil_append]

lemma components_join_name (p : Path) (h : IsName n) :
    (p.join n).components = p.components ++ [.name n] := by
  rw [components_join p (isAbsolute_of_isName h) (lead_of_isName h), steps_of_isName h]

/-! ## Parents -/

@[simp] lemma steps_dot : (Path.mk ".").steps = [] := by
  rw [steps, segments_of_not_mem (by decide)]
  rfl

/-- Slashes at the end of a text, and dots behind them, are no components. -/
lemma components_dropBlanks (k : Nat) (cs : List Char) :
    (Path.mk (String.ofList (parent?.dropBlanks k cs).reverse)).components =
      (Path.mk (String.ofList cs.reverse)).components := by
  fun_induction parent?.dropBlanks k cs with
  | case1 | case2 | case5 => rfl
  | case3 k r hr ih =>
    have htext : String.ofList ('/' :: r).reverse = String.ofList r.reverse ++ "/" ++ "" := by
      simp
    have hne : String.ofList r.reverse ≠ "" := by
      simpa [← String.toList_inj] using hr
    rw [ih, htext, components_eq, components_eq ⟨_ ++ "/" ++ ""⟩, lead_append hne, steps_append,
      steps_empty, List.append_nil]
  | case4 k r ih =>
    have htext :
        String.ofList ('.' :: '/' :: r).reverse = String.ofList r.reverse ++ "/" ++ "." := by
      simp [← String.toList_inj]
    have htext' : String.ofList ('/' :: r).reverse = String.ofList r.reverse ++ "/" ++ "" := by
      simp
    rw [ih, htext, htext', components_eq, components_eq ⟨_ ++ "/" ++ "."⟩, steps_append,
      steps_append, steps_dot, steps_empty, lead_append_slash _ "" "."]

/-- The last segment is all of a text, or what stands behind its last slash. -/
lemma text_of_getLast? (h : p.segments.getLast? = some n) :
    p.text = n ∨ ∃ a, p.text = a ++ "/" ++ n := by
  by_cases hslash : '/' ∈ p.text.toList
  · obtain ⟨b, a, hsplit, hb⟩ := List.eq_append_cons_of_mem (List.mem_reverse.2 hslash)
    have htext : p.text = String.ofList a.reverse ++ "/" ++ String.ofList b.reverse := by
      rw [← String.toList_inj, ← List.reverse_inj, hsplit]
      simp
    have hlast : (Path.mk (String.ofList b.reverse)).segments = [String.ofList b.reverse] :=
      segments_of_not_mem (by simpa using hb)
    have hseg : p.segments = _ ++ _ := htext ▸ segments_append _ _
    rw [hseg, hlast, List.getLast?_concat, Option.some.injEq] at h
    exact .inr ⟨_, h ▸ htext⟩
  · have hseg : p.segments = [p.text] := segments_of_not_mem hslash
    rw [hseg] at h
    exact .inl (Option.some.inj h)

/-- A name at the end of a text is no blank. -/
lemma dropBlanks_name (k : Nat) (hn : IsName n) (a : List Char) :
    parent?.dropBlanks k (n.toList.reverse ++ a) = n.toList.reverse ++ a := by
  obtain ⟨c, cs, hcs⟩ := List.exists_cons_of_ne_nil (l := n.toList.reverse)
    (by simpa using hn.1)
  have hmem : ∀ d ∈ c :: cs, d ≠ '/' := fun d hd hslash =>
    hn.2.2.2 (by simpa [← hcs, hslash] using hd)
  have hdot : c = '.' → cs ≠ [] := by
    rintro rfl rfl
    exact hn.2.1 (String.toList_inj.1 (by simpa using hcs))
  rw [hcs, List.cons_append]
  generalize hl : c :: (cs ++ a) = l
  fun_cases parent?.dropBlanks k l with
  | case1 | case2 | case5 => rfl
  | case3 => exact absurd (List.cons.inj hl).1 (hmem c List.mem_cons_self)
  | case4 =>
    obtain ⟨hc, hrest⟩ := List.cons.inj hl
    obtain ⟨d, ds, rfl⟩ := List.exists_cons_of_ne_nil (hdot hc)
    exact absurd (List.cons.inj hrest).1 (hmem d (by simp))

/-- A path that ends in a name, cut in front of it. -/
lemma exists_cut (h : p.segments.getLast? = some n) (hn : IsName n) :
    ∃ rest, p.text.toList.reverse = n.toList.reverse ++ rest ∧
      p.components = (Path.mk (String.ofList rest.reverse)).components ++ [.name n] := by
  rcases text_of_getLast? h with htext | ⟨a, htext⟩
  · obtain rfl : p = ⟨n⟩ := congrArg Path.mk htext
    exact ⟨[], by simp, by simp [components_of_isName hn]⟩
  · obtain rfl : p = ⟨a ++ "/" ++ n⟩ := congrArg Path.mk htext
    refine ⟨'/' :: a.toList.reverse, by simp, ?_⟩
    have hcut : String.ofList ('/' :: a.toList.reverse).reverse = a ++ "/" ++ "" := by simp
    rw [hcut, components_eq, components_eq ⟨a ++ "/" ++ ""⟩, lead_append_slash a n "",
      steps_append, steps_append, steps_empty, steps_of_isName hn, List.append_nil,
      List.append_assoc]

lemma components_parent? (h : p.segments.getLast? = some n) (hn : IsName n) :
    ∃ q, p.parent? = some q ∧ q.components = p.components.dropLast := by
  obtain ⟨rest, htext, hcomps⟩ := exists_cut h hn
  have hlast : p.components.getLast? = some (.name n) := by
    rw [hcomps, List.getLast?_concat]
  have hdrop : (n.toList.reverse ++ rest).drop n.length = rest :=
    List.drop_left' (by rw [List.length_reverse, String.length_toList])
  refine ⟨_, by rw [parent?, hlast], ?_⟩
  rw [htext, dropBlanks_name _ hn, Component.text, hdrop, components_dropBlanks, hcomps,
    List.dropLast_concat]

end Path

end AddonAtlas
