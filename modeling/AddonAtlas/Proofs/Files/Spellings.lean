import AddonAtlas.Proofs.Files.Components

/-!
Paths spelled as their components are.

With one slash between any two components a path has exactly one spelling, and what it has below a
base is spelled in that way too: it is the spelling of the components that the base lacks.
-/

namespace AddonAtlas.Path

variable {p q base : Path} {s : String} {l : List String} {c : Component} {cs : List Component}

namespace Component

/-- What stands for a component between the slashes; the root is what stands before the first. -/
def written : Component → String
  | .root => ""
  | c => c.text

/-- A step up, or a name. -/
def IsStep (c : Component) : Prop := c = .up ∨ ∃ n, IsName n ∧ c = .name n

lemma IsStep.isFiller_written (h : c.IsStep) : isFiller c.written = false := by
  rcases h with rfl | ⟨n, hn, rfl⟩
  · rfl
  · exact isFiller_of_isName hn

lemma IsStep.inner_written (h : c.IsStep) : inner [c.written] = [c] := by
  rcases h with rfl | ⟨n, hn, rfl⟩
  · rfl
  · exact inner_name hn

lemma IsStep.slash_not_mem (h : c.IsStep) : '/' ∉ c.written.toList := by
  rcases h with rfl | ⟨n, hn, rfl⟩
  · decide
  · exact hn.2.2.2

end Component

open Component

/-- The components that some text has: the root or a leading dot only in front. -/
def IsProper : List Component → Prop
  | [] => True
  | c :: r => (c = .root ∨ c = .here ∨ c.IsStep) ∧ ∀ d ∈ r, d.IsStep

/-- The text of components, with one slash between any two. -/
def spelling (cs : List Component) : String :=
  if cs = [.root] then "/" else "/".intercalate (cs.map written)

/-- A path without empty components and without dots that do not count. -/
def IsTidy (p : Path) : Prop := p.text = spelling p.components

/-! ## Components of a text -/

lemma isStep_of_mem_steps (h : c ∈ p.steps) : c.IsStep := by
  obtain ⟨s, hs, hc⟩ := List.mem_filterMap.1 h
  split at hc
  · cases hc
  next hfill =>
    have hfill : isFiller s = false := by simpa [isFiller] using hfill
    split at hc
    · exact .inl (Option.some.inj hc).symm
    next hup => exact .inr ⟨s, isName_of_mem_segments hs hfill hup, (Option.some.inj hc).symm⟩

lemma isProper_components (p : Path) : IsProper p.components := by
  have hsteps : ∀ c ∈ p.steps, c.IsStep := fun _ => isStep_of_mem_steps
  rw [components_eq]
  unfold lead
  split_ifs
  · exact ⟨.inl rfl, hsteps⟩
  · exact ⟨.inr (.inl rfl), hsteps⟩
  · cases hp : p.steps with
    | nil => trivial
    | cons c r =>
      rw [hp] at hsteps
      exact ⟨.inr (.inr (hsteps c List.mem_cons_self)),
        fun d hd => hsteps d (List.mem_cons_of_mem c hd)⟩

lemma isProper_of_append {bs : List Component} (h : IsProper (bs ++ cs)) : IsProper cs := by
  cases bs with
  | nil => exact h
  | cons b bs =>
    have hsteps : ∀ c ∈ cs, c.IsStep := fun c hc => h.2 c (List.mem_append_right bs hc)
    cases cs with
    | nil => trivial
    | cons c r =>
      exact ⟨.inr (.inr (hsteps c List.mem_cons_self)),
        fun d hd => hsteps d (List.mem_cons_of_mem c hd)⟩

lemma inner_map_written (h : ∀ c ∈ cs, c.IsStep) : inner (cs.map written) = cs := by
  induction cs with
  | nil => rfl
  | cons c r ih =>
    have hc := (h c List.mem_cons_self).inner_written
    have hr := ih fun d hd => h d (List.mem_cons_of_mem c hd)
    calc inner (c.written :: r.map written)
        = inner [c.written] ++ inner (r.map written) := inner_append [c.written] _
      _ = c :: r := by rw [hc, hr]; rfl

lemma slash_not_mem_written (h : IsProper cs) : ∀ s ∈ cs.map written, '/' ∉ s.toList := by
  intro s hs
  obtain ⟨c, hc, rfl⟩ := List.mem_map.1 hs
  cases cs with
  | nil => cases hc
  | cons d r =>
    rcases List.mem_cons.1 hc with rfl | hc
    · rcases h.1 with rfl | rfl | hstep
      · decide
      · decide
      · exact hstep.slash_not_mem
    · exact (h.2 c hc).slash_not_mem

/-! ## Segments of a spelling -/

/-- Pieces without slashes, joined by slashes. -/
lemma segments_intercalate (hl : l ≠ []) (h : ∀ s ∈ l, '/' ∉ s.toList) :
    (Path.mk ("/".intercalate l)).segments = l :=
  Text.splitOn_intercalate (c := '/') hl h

lemma intercalate_segments (p : Path) : "/".intercalate p.segments = p.text :=
  Text.intercalate_splitOn p.text '/'

lemma segments_spelling (h : IsProper cs) (hne : cs ≠ []) (hroot : cs ≠ [.root]) :
    (Path.mk (spelling cs)).segments = cs.map written := by
  rw [spelling, if_neg hroot]
  exact segments_intercalate (by simpa using hne) (slash_not_mem_written h)

lemma isAbsolute_spelling (h : IsProper cs) :
    (Path.mk (spelling cs)).isAbsolute = (cs.head? == some .root) := by
  cases cs with
  | nil => rfl
  | cons c r =>
    by_cases hc : c = .root
    · subst hc
      cases r with
      | nil => rfl
      | cons d r =>
        simp [spelling, isAbsolute, written, String.toList_intercalate, List.intercalate]
    · have hne : c.written ≠ "" := by
        rcases h.1 with rfl | rfl | hstep
        · exact absurd rfl hc
        · decide
        · intro hnil
          have hfill := hstep.isFiller_written
          rw [hnil] at hfill
          exact absurd hfill (by decide)
      have hseg := segments_spelling h (List.cons_ne_nil c r) (by simp [hc])
      have hfalse : (Path.mk (spelling (c :: r))).isAbsolute = false := by
        by_contra habs
        have hhead := head?_segments_of_isAbsolute (by simpa using habs)
        rw [hseg] at hhead
        exact hne (Option.some.inj hhead)
      simp [hfalse, hc]

/-- A spelling tells its components. -/
lemma components_spelling (h : IsProper cs) : (Path.mk (spelling cs)).components = cs := by
  cases cs with
  | nil => exact components_empty
  | cons c r =>
    by_cases hroot : c :: r = [.root]
    · rw [hroot, spelling, if_pos rfl, components, segments_slash]
      rfl
    · have hseg := segments_spelling h (List.cons_ne_nil c r) hroot
      have habs := isAbsolute_spelling h
      have hr := inner_map_written h.2
      unfold components
      rw [hseg, habs, List.map_cons]
      dsimp only
      rcases h.1 with rfl | rfl | hstep
      · simpa using hr
      · simpa [written, Component.text] using hr
      · have hc := hstep.inner_written
        have hfill := hstep.isFiller_written
        have hne : c ≠ .root := by
          rintro rfl
          exact absurd hfill (by decide)
        have hdot : c.written ≠ "." := by
          intro hdot
          rw [hdot] at hfill
          exact absurd hfill (by decide)
        rw [if_neg (by simpa using hne), if_neg hdot]
        exact (inner_append [c.written] _).trans (by rw [hc, hr]; rfl)

/-! ## Tidy paths -/

lemma IsTidy.eq_of_components (hp : p.IsTidy) (hq : q.IsTidy) (h : p.components = q.components) :
    p = q := by
  have htext : p.text = q.text := by rw [hp, hq, h]
  exact congrArg Path.mk htext

/-- Segments without fillers are steps as they are written. -/
lemma map_written_inner (h : ∀ s ∈ l, isFiller s = false) : (inner l).map written = l := by
  induction l with
  | nil => rfl
  | cons s l ih =>
    obtain ⟨hs, hl⟩ := List.forall_mem_cons.1 h
    rw [inner_cons_of_not_filler hs, List.map_cons, ih hl]
    by_cases hup : s = ".." <;> simp [hup, written, Component.text]

/-- No empty component, and no dot but perhaps in front: that is enough. -/
lemma isTidy_of_segments (h : ∀ s ∈ p.segments.tail, isFiller s = false) : p.IsTidy := by
  by_cases hp : p.text = ""
  · obtain rfl : p = ⟨""⟩ := congrArg Path.mk hp
    rw [IsTidy, components_empty]
    rfl
  · obtain ⟨s, l, hseg⟩ := List.exists_cons_of_ne_nil p.segments_ne_nil
    rw [hseg, List.tail_cons] at h
    have hwritten := map_written_inner h
    -- so it is enough that the first component is written as the first segment
    have htidy {c : Component} (hcomps : p.components = c :: inner l) (hc : c.written = s)
        (hroot : c :: inner l ≠ [.root]) : p.IsTidy := by
      rw [IsTidy, hcomps, spelling, if_neg hroot, List.map_cons, hwritten, hc, ← hseg,
        intercalate_segments]
    cases habs : p.isAbsolute with
    | true =>
      have hs : s = "" := by
        have hhead := head?_segments_of_isAbsolute habs
        rw [hseg] at hhead
        exact Option.some.inj hhead
      refine htidy (c := .root) (by simp [components, hseg, habs]) hs.symm fun hnil => hp ?_
      have hl : l = [] := by
        rw [← hwritten, List.cons.inj hnil |>.2]
        rfl
      rw [← intercalate_segments p, hseg, hs, hl]
      rfl
    | false =>
      obtain ⟨x, r, hxr, hx⟩ := exists_segments_cons hp habs
      obtain ⟨rfl, rfl⟩ := List.cons.inj (hseg.symm.trans hxr)
      by_cases hdot : s = "."
      · exact htidy (c := .here) (by simp [components, hseg, habs, hdot]) hdot.symm (by simp)
      · have hs := inner_cons_of_not_filler (s := s) (by simp [isFiller, hx, hdot]) l
        refine htidy (c := if s = ".." then .up else .name s) ?_ ?_ ?_
        · simp [components, hseg, habs, hdot, hs]
        · split_ifs with hup <;> simp [hup, written, Component.text]
        · split_ifs <;> simp

lemma IsTidy.segments_eq (hp : p.IsTidy) (hne : p.components ≠ [])
    (hroot : p.components ≠ [.root]) :
    p.segments = p.components.map written := by
  have hseg := segments_spelling p.isProper_components hne hroot
  rwa [← hp] at hseg

lemma dropComponents_of_no_filler (n : Nat) (h : ∀ s ∈ l, isFiller s = false) :
    dropComponents n false l = l.drop n := by
  induction l generalizing n with
  | nil => cases n <;> rfl
  | cons s l ih =>
    cases n with
    | zero => rfl
    | succ n =>
      have hs : (s = "" || s = ".") = false := h s List.mem_cons_self
      have hl := ih n fun x hx => h x (List.mem_cons_of_mem s hx)
      rw [dropComponents, hs, List.drop_succ_cons, ← hl]
      rfl

/-- Nothing is taken off the end of steps. -/
lemma reverse_dropWhile_of_steps (l : List String) (hne : cs ≠ []) (h : ∀ c ∈ cs, c.IsStep) :
    ((l ++ cs.map written).reverse.dropWhile isFiller).reverse = l ++ cs.map written := by
  obtain ⟨cs, c, rfl⟩ := List.eq_nil_or_concat' cs |>.resolve_left hne
  have hc := (h c (by simp)).isFiller_written
  simp [hc]

/-- Below a base without components a tidy path is what it is. -/
lemma below?_of_isTidy_of_nil (hp : p.IsTidy) (hbase : base.components = [])
    (hne : p.components ≠ []) : p.below? base = some p := by
  have hproper := p.isProper_components
  obtain ⟨c, r, hcomps⟩ := List.exists_cons_of_ne_nil hne
  rw [hcomps] at hproper
  rw [below?, hbase, if_pos (by simp)]
  by_cases hbare : r = [] ∧ (c = .root ∨ c = .here)
  · obtain ⟨rfl, rfl | rfl⟩ := hbare
    · have hslash : p = ⟨"/"⟩ := congrArg Path.mk (hp.trans (by rw [hcomps, spelling, if_pos rfl]))
      rw [hslash]
      simp [dropComponents, segments_slash, isFiller, isAbsolute]
    · have hdot : p = ⟨"."⟩ := congrArg Path.mk (hp.trans (by rw [hcomps]; rfl))
      rw [hdot]
      simp [dropComponents, segments_of_not_mem (t := ".") (by decide), isFiller, isAbsolute]
  · have hroot : p.components ≠ [.root] := by
      rw [hcomps]
      exact fun heq => hbare ⟨(List.cons.inj heq).2, .inl (List.cons.inj heq).1⟩
    have hseg := hp.segments_eq hne hroot
    rw [hcomps] at hseg
    -- segments that end in a step stay as they are
    have hkept : (p.segments.reverse.dropWhile isFiller).reverse = p.segments := by
      rw [hseg]
      by_cases hr : r = []
      · subst hr
        have hc : c.IsStep := by
          rcases hproper.1 with hc | hc | hc
          · exact absurd ⟨rfl, .inl hc⟩ hbare
          · exact absurd ⟨rfl, .inr hc⟩ hbare
          · exact hc
        exact reverse_dropWhile_of_steps [] (List.cons_ne_nil c []) (by simpa using hc)
      · exact reverse_dropWhile_of_steps [c.written] hr hproper.2
    have hsegments : p.segments.isEmpty = false := by simp [p.segments_ne_nil]
    simp only [List.length_nil, dropComponents, List.isEmpty_nil, if_true, hkept, hsegments,
      Bool.and_false, Bool.false_eq_true, if_false, intercalate_segments]

/-- What a tidy path has below a base is the spelling of what the base lacks. -/
lemma below?_of_isTidy (hp : p.IsTidy) (h : p.components = base.components ++ cs) (hne : cs ≠ []) :
    p.below? base = some ⟨spelling cs⟩ := by
  have hproper := p.isProper_components
  have hcomps : p.components ≠ [] := by simp [h, hne]
  cases hbase : base.components with
  | nil =>
    rw [hbase, List.nil_append] at h
    rw [below?_of_isTidy_of_nil hp hbase hcomps, ← h, ← hp]
  | cons b bs =>
    have hprefix : (b :: bs).isPrefixOf p.components = true := by
      rw [List.isPrefixOf_iff_prefix, h, hbase]
      exact List.prefix_append _ _
    rw [hbase, List.cons_append] at h
    have hsteps : ∀ c ∈ bs ++ cs, c.IsStep := by
      rw [h] at hproper
      exact hproper.2
    have hcs : ∀ c ∈ cs, c.IsStep := fun c hc => hsteps c (List.mem_append_right bs hc)
    have hroot : cs ≠ [.root] := by
      rintro rfl
      exact absurd (hcs .root List.mem_cons_self).isFiller_written (by decide)
    have hfill : ∀ s ∈ (bs ++ cs).map written, isFiller s = false := by
      intro s hs
      obtain ⟨c, hc, rfl⟩ := List.mem_map.1 hs
      exact (hsteps c hc).isFiller_written
    have hseg := hp.segments_eq hcomps (by simp [h, hne])
    have hdrop : dropComponents (b :: bs).length true p.segments = cs.map written := by
      rw [hseg, h, List.length_cons, List.map_cons, dropComponents,
        dropComponents_of_no_filler _ hfill, List.map_append]
      exact List.drop_left' (List.length_map _)
    have hfront : (cs.map written).dropWhile isFiller = cs.map written := by
      obtain ⟨c, r, rfl⟩ := List.exists_cons_of_ne_nil hne
      rw [List.map_cons, List.dropWhile_cons_of_neg]
      simp [(hcs c List.mem_cons_self).isFiller_written]
    have hend := reverse_dropWhile_of_steps [] hne hcs
    rw [List.nil_append] at hend
    rw [below?, hbase, if_pos hprefix, hdrop]
    simp only [List.isEmpty_cons, Bool.false_eq_true, if_false, Bool.false_and, hfront, hend,
      spelling, hroot]

end AddonAtlas.Path
