import AddonAtlas.Script.Read
import Mathlib.Data.List.Infix
import Mathlib.Data.List.TakeWhile

/-!
Scripts that a tag declares to be modules.

A tag counts where some comment sign stands before it, with nothing between the two but the rest of
a line and blank space. That sign need not open the script, and the tag need not stand in its
comment. In line comments that open a script a tag always counts. In a comment that goes on over
several lines it counts on the first line, as the first thing that is written behind that line, and
behind another sign.
-/

namespace AddonAtlas.Script

open Text

/-- A tag stands in a text between a front and a back. -/
def TagAt (cs x r : List Char) : Prop := cs = x ++ moduleTag.toList ++ r

/-- No more than the rest of a line, and blank space behind it. -/
def InReach (y : List Char) : Prop :=
  ∃ line gap, y = line ++ gap ∧ '\n' ∉ line ∧ ∀ c ∈ gap, isBlank c = true

/-- The front of a text has a comment sign with its end in reach. -/
def IsMarked (x : List Char) : Prop :=
  ∃ before c y, x = before ++ '/' :: c :: y ∧ (c = '*' ∨ c = '/') ∧ InReach y

/-- The front of a text ends in one of the line comments that open the text. -/
inductive InLines : List Char → Prop
  | here {gap line : List Char} : (∀ c ∈ gap, isBlank c = true) → '\n' ∉ line →
      InLines (gap ++ '/' :: '/' :: line)
  | next {gap line rest : List Char} : (∀ c ∈ gap, isBlank c = true) → '\n' ∉ line → InLines rest →
      InLines (gap ++ '/' :: '/' :: line ++ '\n' :: rest)

/-- The front of a text ends in the comment that opens the text. -/
def InOpening (x : List Char) : Prop :=
  InLines x ∨ ∃ gap y, x = gap ++ '/' :: '*' :: y ∧ (∀ c ∈ gap, isBlank c = true) ∧
    ¬ "*/".toList <:+: y

/-- What a script declares, seen from behind its tag. -/
def declaredBehind (address text : String) (r : List Char) : ScriptModule where
  name := modulePath address
  otherName := (tagAlias? r).map Prod.fst
  default := !isOff (((tagAlias? r).map Prod.snd).getD r)
  requires := .ofList (namedImports text.toList.length true text.toList ++ requirements text.toList)

/-- A script is read by a tag that stands at a place of some kind, and as a plain script if no tag
stands at such a place. -/
def ReadByTag (place : List Char → Prop) (address text : String) : Prop :=
  (∃ x r, TagAt text.toList x r ∧ place x ∧ read address text = declaredBehind address text r) ∨
    (∀ x r, TagAt text.toList x r → ¬ place x) ∧ read address text = { name := modulePath address }

variable {cs x y r s gap line : List Char} {c : Char} {address text : String}

/-! ## Tags behind a comment sign -/

lemma word?_eq_some {w : String} (h : word? w cs = some r) : cs = w.toList ++ r := by
  rw [word?] at h
  split at h
  · rename_i hprefix
    obtain ⟨s, rfl⟩ := List.isPrefixOf_iff_prefix.1 hprefix
    obtain rfl := Option.some.inj h
    rw [← String.length_toList, List.drop_left]
  · cases h

lemma word?_append (w : String) (r : List Char) : word? w (w.toList ++ r) = some r := by
  rw [word?, if_pos (List.isPrefixOf_iff_prefix.2 (List.prefix_append _ r)), ← String.length_toList,
    List.drop_left]

lemma lastTag?_eq_some (h : lastTag? cs = some r) : ∃ line, TagAt cs line r ∧ '\n' ∉ line := by
  induction cs with
  | nil => cases h
  | cons c cs ih =>
    rw [lastTag?] at h
    split at h
    · cases h
    · rename_i hc
      split at h
      · rename_i s hs
        obtain rfl := Option.some.inj h
        obtain ⟨line, rfl, hline⟩ := ih hs
        exact ⟨c :: line, rfl, List.not_mem_cons_of_ne_of_not_mem (Ne.symm hc) hline⟩
      · exact ⟨[], word?_eq_some h, by simp⟩

lemma lastTag?_isSome (h : '\n' ∉ line) (r : List Char) :
    (lastTag? (line ++ moduleTag.toList ++ r)).isSome = true := by
  induction line with
  | nil =>
    have htag : moduleTag.toList ++ r = '@' :: ("odoo-module".toList ++ r) := rfl
    have hword := word?_append moduleTag r
    rw [htag] at hword
    rw [List.nil_append, htag, lastTag?, if_neg (by decide)]
    split
    · rfl
    · rw [hword]
      rfl
  | cons c line ih =>
    obtain ⟨hc, hline⟩ := not_or.1 (List.mem_cons.not.1 h)
    obtain ⟨s, hs⟩ := Option.isSome_iff_exists.1 (ih hline)
    rw [List.cons_append, List.cons_append, lastTag?, if_neg (Ne.symm hc), hs]
    rfl

/-- The tag that is taken stands in reach. -/
lemma tagAfter?_eq_some (h : tagAfter? cs = some r) : ∃ y, TagAt cs y r ∧ InReach y := by
  rcases Option.or_eq_some_iff.1 h with h | ⟨-, h⟩
  · have hword := word?_eq_some h
    refine ⟨cs.takeWhile (· ≠ '\n') ++ (cs.dropWhile (· ≠ '\n')).takeWhile isBlank, ?_, _, _, rfl,
      ?_, fun c hc => List.mem_takeWhile_imp hc⟩
    · rw [TagAt, List.append_assoc, ← hword, trimStart, List.append_assoc,
        List.takeWhile_append_dropWhile, List.takeWhile_append_dropWhile]
    · intro hmem
      simpa using List.mem_takeWhile_imp hmem
  · obtain ⟨line, htag, hline⟩ := lastTag?_eq_some h
    exact ⟨line, htag, line, [], by simp, hline, by simp⟩

lemma trimStart_gap (hgap : ∀ c ∈ gap, isBlank c = true) (r : List Char) :
    trimStart (gap ++ moduleTag.toList ++ r) = moduleTag.toList ++ r := by
  rw [trimStart, List.append_assoc, List.dropWhile_append_of_pos hgap]
  exact List.dropWhile_cons_of_neg (by decide)

/-- A tag in reach is taken, or another one. -/
lemma tagAfter?_isSome (h : TagAt cs y r) (hy : InReach y) : (tagAfter? cs).isSome = true := by
  obtain ⟨line, gap, rfl, hline, hgap⟩ := hy
  rw [tagAfter?, Option.isSome_or, Bool.or_eq_true]
  by_cases hfeed : '\n' ∈ gap
  · left
    obtain ⟨a, b, rfl, ha⟩ := List.eq_append_cons_of_mem hfeed
    have hb : ∀ c ∈ '\n' :: b, isBlank c = true := fun c hc => hgap c (List.mem_append_right a hc)
    have hdrop : cs.dropWhile (· ≠ '\n') = '\n' :: b ++ moduleTag.toList ++ r := by
      have hall : ∀ c ∈ line ++ a, decide (c ≠ '\n') = true := by
        intro c hc
        refine decide_eq_true fun h => ?_
        exact (List.mem_append.1 hc).elim (fun hc => hline (h ▸ hc)) (fun hc => ha (h ▸ hc))
      have hcs : cs = line ++ a ++ ('\n' :: b ++ moduleTag.toList ++ r) := by
        rw [show cs = _ from h]
        simp
      rw [hcs, List.dropWhile_append_of_pos hall]
      exact List.dropWhile_cons_of_neg (by simp)
    rw [hdrop, trimStart_gap hb, word?_append]
    rfl
  · right
    have hall : '\n' ∉ line ++ gap := by simp [hline, hfeed]
    rw [show cs = _ from h]
    exact lastTag?_isSome hall r

/-! ## Tags in a text -/

lemma TagAt.append (h : TagAt cs x r) (y : List Char) : TagAt (y ++ cs) (y ++ x) r := by
  rw [TagAt, show cs = _ from h]
  simp

lemma IsMarked.append (h : IsMarked x) (y : List Char) : IsMarked (y ++ x) := by
  obtain ⟨before, c, z, rfl, hc, hz⟩ := h
  exact ⟨y ++ before, c, z, by simp, hc, hz⟩

lemma isMarked_sign (hc : c = '*' ∨ c = '/') (hy : InReach y) : IsMarked ('/' :: c :: y) :=
  ⟨[], c, y, rfl, hc, hy⟩

lemma tagged?_sign (hc : c = '*' ∨ c = '/') : tagged? ('/' :: c :: r) =
    (tagAfter? r).or (tagged? (c :: r)) := by
  rw [tagged?, if_pos (by simpa using hc)]
  cases tagAfter? r <;> rfl

lemma tagged?_cons (h : ∀ d s, c :: cs = '/' :: d :: s → ¬ (d = '*' ∨ d = '/')) :
    tagged? (c :: cs) = tagged? cs := by
  rw [tagged?.eq_def]
  split
  · rename_i heq
    cases heq
  · rename_i d s heq
    rw [if_neg (by simpa using h d s heq), (List.cons.inj heq).2]
  · rename_i heq
    rw [(List.cons.inj heq).2]

/-- A text begins with a comment sign, or its first character has no part in finding tags. -/
lemma sign_or_tagged?_cons (c : Char) (cs : List Char) :
    (∃ d s, c :: cs = '/' :: d :: s ∧ (d = '*' ∨ d = '/')) ∨ tagged? (c :: cs) = tagged? cs := by
  by_cases h : ∃ d s, c :: cs = '/' :: d :: s ∧ (d = '*' ∨ d = '/')
  · exact .inl h
  · exact .inr (tagged?_cons fun d s heq hd => h ⟨d, s, heq, hd⟩)

/-- The tag that is found is marked. -/
lemma tagged?_eq_some (h : tagged? cs = some r) : ∃ x, TagAt cs x r ∧ IsMarked x := by
  induction cs with
  | nil => cases h
  | cons c cs ih =>
    have hlater (h : tagged? cs = some r) : ∃ x, TagAt (c :: cs) x r ∧ IsMarked x := by
      obtain ⟨x, htag, hx⟩ := ih h
      exact ⟨c :: x, htag.append [c], hx.append [c]⟩
    rcases sign_or_tagged?_cons c cs with ⟨d, s, heq, hd⟩ | hsame
    · obtain ⟨rfl, rfl⟩ := List.cons.inj heq
      rw [tagged?_sign hd] at h
      rcases Option.or_eq_some_iff.1 h with h | ⟨-, h⟩
      · obtain ⟨y, htag, hy⟩ := tagAfter?_eq_some h
        exact ⟨'/' :: d :: y, htag.append ['/', d], isMarked_sign hd hy⟩
      · exact hlater h
    · exact hlater (hsame ▸ h)

/-- A text with a marked tag has a tag that is found. -/
lemma tagged?_isSome (h : TagAt cs x r) (hx : IsMarked x) : (tagged? cs).isSome = true := by
  obtain ⟨before, c, y, rfl, hc, hy⟩ := hx
  have hcs : cs = before ++ '/' :: c :: (y ++ moduleTag.toList ++ r) := by
    rw [show cs = _ from h]
    simp
  clear h
  induction before generalizing cs with
  | nil =>
    rw [hcs, List.nil_append, tagged?_sign hc, Option.isSome_or, tagAfter?_isSome rfl hy,
      Bool.true_or]
  | cons d before ih =>
    have hrest := ih rfl
    rw [hcs, List.cons_append]
    rcases sign_or_tagged?_cons d (before ++ '/' :: c :: (y ++ moduleTag.toList ++ r)) with
      ⟨e, s, heq, he⟩ | hsame
    · rw [(List.cons.inj heq).2] at hrest
      rw [heq, tagged?_sign he, Option.isSome_or, hrest, Bool.or_true]
    · rw [hsame]
      exact hrest

/-! ## Comments that open a text -/

lemma isMarked_of_inLines (h : InLines x) : IsMarked x := by
  induction h with
  | here hgap hline => exact (isMarked_sign (.inr rfl) ⟨_, [], by simp, hline, by simp⟩).append _
  | next hgap hline hrest ih =>
    rename_i gap line rest
    have happend := ih.append (gap ++ '/' :: '/' :: line ++ ['\n'])
    rwa [List.append_assoc, List.singleton_append] at happend

/-- Behind the sign of a comment that opens a text, a tag is marked if it is in reach of this sign
or marked by another one. -/
lemma isMarked_block_iff (hgap : ∀ c ∈ gap, isBlank c = true) :
    IsMarked (gap ++ '/' :: '*' :: y) ↔ InReach y ∨ IsMarked y := by
  constructor
  · rintro ⟨before, c, z, heq, hc, hz⟩
    rcases List.append_eq_append_iff.1 heq with ⟨l, rfl, hl⟩ | ⟨l, rfl, hl⟩
    · match l, hl with
      | [], hl =>
        obtain ⟨-, rfl⟩ := List.cons.inj (List.cons.inj hl).2
        exact .inl hz
      | [_], hl => exact absurd (List.cons.inj (List.cons.inj hl).2).1 (by decide)
      | _ :: _ :: l, hl =>
        obtain ⟨-, rfl⟩ := List.cons.inj (List.cons.inj hl).2
        exact .inr ⟨l, c, z, rfl, hc, hz⟩
    · cases l with
      | nil =>
        obtain ⟨-, rfl⟩ := List.cons.inj (List.cons.inj hl).2
        exact .inl hz
      | cons d l =>
        obtain ⟨rfl, -⟩ := List.cons.inj hl
        exact absurd (hgap '/' (by simp)) (by decide)
  · rintro (hy | hy)
    · exact (isMarked_sign (.inl rfl) hy).append gap
    · have happend := hy.append (gap ++ ['/', '*'])
      rwa [List.append_assoc] at happend

/-- What opens a text begins with a slash. -/
lemma InOpening.head? (h : InOpening x) (r : List Char) :
    (trimStart (x ++ r)).head? = some '/' := by
  have hstart {gap rest : List Char} (hgap : ∀ c ∈ gap, isBlank c = true) :
      (trimStart (gap ++ '/' :: rest)).head? = some '/' := by
    rw [trimStart, List.dropWhile_append_of_pos hgap, List.dropWhile_cons_of_neg (by decide)]
    rfl
  rcases h with (⟨hgap, -⟩ | ⟨hgap, -, -⟩) | ⟨gap, y, rfl, hgap, -⟩
  all_goals
    simp only [List.append_assoc, List.cons_append]
    exact hstart hgap

/-! ## Scripts -/

lemma read_of_tagged?_eq_none (h : definitions text.toList = [])
    (htag : tagged? text.toList = none) :
    read address text = { name := modulePath address } := by
  rw [read, h]
  dsimp only
  rw [htag]

lemma read_of_tagged?_eq_some (h : definitions text.toList = [])
    (htag : tagged? text.toList = some r) :
    read address text = declaredBehind address text r := by
  rw [read, h]
  dsimp only
  rw [htag, declaredBehind]
  dsimp only
  cases tagAlias? r <;> rfl

lemma readByTag_isMarked (h : definitions text.toList = []) : ReadByTag IsMarked address text := by
  cases htag : tagged? text.toList with
  | none =>
    refine .inr ⟨fun x r hx hmarked => ?_, read_of_tagged?_eq_none h htag⟩
    have hsome := tagged?_isSome hx hmarked
    rw [htag] at hsome
    cases hsome
  | some r =>
    obtain ⟨x, hx, hmarked⟩ := tagged?_eq_some htag
    exact .inl ⟨x, r, hx, hmarked, read_of_tagged?_eq_some h htag⟩

lemma ReadByTag.congr {p q : List Char → Prop} (h : ReadByTag p address text)
    (hpq : ∀ x r, TagAt text.toList x r → (p x ↔ q x)) : ReadByTag q address text := by
  rcases h with ⟨x, r, hx, hp, hread⟩ | ⟨hnone, hread⟩
  · exact .inl ⟨x, r, hx, (hpq x r hx).1 hp, hread⟩
  · exact .inr ⟨fun x r hx hq => hnone x r hx ((hpq x r hx).2 hq), hread⟩

/-- **Tagged scripts.** A script without a definition is read by a marked tag, and as a plain
script if it has none. If its tags are marked just where they stand in the comment that opens the
script, then it is read by a tag there. Tags in line comments at the beginning are marked. Tags in
another comment at the beginning are if they are in reach of its sign or marked by a sign inside of
it. -/
theorem read_byTag (address text : String) (h : definitions text.toList = []) :
    ReadByTag IsMarked address text ∧
    ((∀ x r, TagAt text.toList x r → (IsMarked x ↔ InOpening x)) →
      ReadByTag InOpening address text) ∧
    (∀ x, InLines x → IsMarked x) ∧
    ∀ gap y, (∀ c ∈ gap, isBlank c = true) →
      (IsMarked (gap ++ '/' :: '*' :: y) ↔ InReach y ∨ IsMarked y) :=
  ⟨readByTag_isMarked h, (readByTag_isMarked h).congr, fun _ => isMarked_of_inLines,
    fun _ _ => isMarked_block_iff⟩

/-! ### Scripts with one tag -/

/-- Where tags begin in a text. -/
def tagPlaces (cs : List Char) : List Nat :=
  (List.range cs.length).filter fun k => moduleTag.toList.isPrefixOf (cs.drop k)

lemma TagAt.take_drop {k : Nat} (h : TagAt cs x r) (hk : tagPlaces cs = [k]) :
    x = cs.take k ∧ r = cs.drop (k + moduleTag.toList.length) := by
  have hlength : x.length = k := by
    rw [← List.mem_singleton, ← hk, tagPlaces, List.mem_filter, List.mem_range, show cs = _ from h]
    refine ⟨?_, ?_⟩
    · rw [List.append_assoc, List.length_append, List.length_append]
      have htag : 0 < moduleTag.toList.length := by decide
      omega
    · rw [List.append_assoc, List.drop_left]
      exact List.isPrefixOf_iff_prefix.2 (List.prefix_append _ _)
  rw [show cs = _ from h, ← hlength, ← List.length_append, List.drop_left, List.append_assoc,
    List.take_left]
  exact ⟨rfl, rfl⟩

/-- A tag on the second line of a comment, with nothing before it. -/
def dialogScript : String := "/*\n@odoo-module alias=web.Dialog\n*/\n"

theorem read_byTag_dialog : definitions dialogScript.toList = [] ∧
    ReadByTag InOpening "web/static/src/dialog.js" dialogScript := by
  have hplaces : tagPlaces dialogScript.toList = [3] := by decide +kernel
  have hdefinitions : definitions dialogScript.toList = [] := by decide +kernel
  refine ⟨hdefinitions, (read_byTag _ _ hdefinitions).2.1 fun x r h => ?_⟩
  obtain ⟨rfl, -⟩ := h.take_drop hplaces
  have hmarked : IsMarked "/*\n".toList :=
    isMarked_sign (.inl rfl) ⟨[], ['\n'], rfl, by simp, by simp [isBlank]⟩
  have hopening : InOpening "/*\n".toList :=
    .inr ⟨[], ['\n'], rfl, by simp, by decide⟩
  exact iff_of_true hmarked hopening

/-- A tag in a comment behind a statement. -/
def lateTag : String := "x = 1; // @odoo-module alias=a"

/-- A tag on the second line of a comment, behind an asterisk. -/
def innerTag : String := "/*\n * @odoo-module alias=a\n */"

/-- It is not so that a tag counts just in the comment that opens a script. -/
theorem not_readByTag_inOpening :
    (definitions lateTag.toList = [] ∧ ¬ ReadByTag InOpening "sale/static/src/a.js" lateTag) ∧
    definitions innerTag.toList = [] ∧ ¬ ReadByTag InOpening "sale/static/src/a.js" innerTag := by
  refine ⟨⟨by decide +kernel, ?_⟩, by decide +kernel, ?_⟩
  · rintro (⟨x, r, h, hx, -⟩ | ⟨-, hread⟩)
    · have hslash := hx.head? (moduleTag.toList ++ r)
      rw [← List.append_assoc, ← show _ = _ from h] at hslash
      have hletter : (trimStart lateTag.toList).head? = some 'x' := by decide +kernel
      rw [hletter] at hslash
      cases hslash
    · have halias : (read "sale/static/src/a.js" lateTag).otherName = some "a" := by decide +kernel
      rw [hread] at halias
      cases halias
  · have hplaces : tagPlaces innerTag.toList = [6] := by decide +kernel
    rintro (⟨x, r, h, -, hread⟩ | ⟨hnone, -⟩)
    · obtain ⟨-, rfl⟩ := h.take_drop hplaces
      have hplain : (read "sale/static/src/a.js" innerTag).otherName = none := by decide +kernel
      rw [hread] at hplain
      exact absurd hplain (by decide +kernel)
    · have hopening : InOpening "/*\n * ".toList :=
        .inr ⟨[], "\n * ".toList, rfl, by simp, by decide⟩
      exact hnone "/*\n * ".toList " alias=a\n */".toList rfl hopening

end AddonAtlas.Script
