import AddonAtlas.Source.Cursor
import Mathlib.Data.List.Basic

/-!
What readings yield.

A property of what is read from a cursor is pushed through the steps of a reading, down to the
nodes at its ends. Properties of the result alone, from any cursor, are put together along the
steps.
-/

namespace AddonAtlas.Source

open AddonAtlas.Text

namespace Tree

variable {t : Tree} {r r' : Role} {ts : List Tree}

@[simp] lemma withRole_role : (t.withRole r).role = some r := by cases t; rfl

@[simp] lemma withRole_kind : (t.withRole r).kind = t.kind := by cases t; rfl

@[simp] lemma withRole_text : (t.withRole r).text = t.text := by cases t; rfl

@[simp] lemma withRole_children : (t.withRole r).children = t.children := by cases t; rfl

end Tree

namespace Reading

variable {α β : Type} {p q : Reading α} {f : α → Reading β} {c : Cursor}

/-! ## From one cursor -/

/-- What a reading takes from a cursor and the cursor behind it have a property, if it takes
anything. -/
def Ensures (p : Reading α) (Q : α → Cursor → Prop) (c : Cursor) : Prop :=
  ∀ a d, p c = some (a, d) → Q a d

@[simp] lemma ensures_pure {a : α} {Q : α → Cursor → Prop} : Ensures (pure a) Q c ↔ Q a c := by
  constructor
  · exact fun h => h a c rfl
  · rintro h _ _ ⟨⟩
    exact h

@[simp] lemma ensures_failure {Q : α → Cursor → Prop} : Ensures failure Q c := by
  intro a d h
  cases h

@[simp] lemma ensures_bind {Q : β → Cursor → Prop} :
    Ensures (p >>= f) Q c ↔ Ensures p (fun a d => Ensures (f a) Q d) c := by
  constructor
  · exact fun h a d ha b e hb => h b e (Option.bind_eq_some_iff.2 ⟨(a, d), ha, hb⟩)
  · intro h b e hb
    obtain ⟨⟨a, d⟩, ha, hb⟩ := Option.bind_eq_some_iff.1 hb
    exact h a d ha b e hb

@[simp] lemma ensures_true : Ensures p (fun _ _ => True) c := fun _ _ _ => trivial

@[simp] lemma ensures_ite {b : Prop} [Decidable b] {Q : α → Cursor → Prop} :
    Ensures (if b then p else q) Q c ↔ (b → Ensures p Q c) ∧ (¬ b → Ensures q Q c) := by
  split <;> simp [*]

@[simp] lemma ensures_node {k : Kind} {start : Position} {cs : List Tree}
    {Q : Tree → Cursor → Prop} :
    Ensures (node k start cs) Q c ↔
      Q (.node ⟨k, none, start.line, c.position.line, start.textTo c.position⟩ cs) c :=
  ensures_pure

/-! ## From any cursor -/

/-- What a reading yields has a property. -/
def Yields (p : Reading α) (Q : α → Prop) : Prop := ∀ c, Ensures p (fun a _ => Q a) c

namespace Yields

variable {P Q : α → Prop} {R : β → Prop}

lemma mono (hp : Yields p P) (h : ∀ a, P a → Q a) : Yields p Q := fun c a d ha => h a (hp c a d ha)

protected lemma pure {a : α} (h : Q a) : Yields (pure a) Q := fun _ => ensures_pure.2 h

protected lemma failure : Yields failure Q := fun _ => ensures_failure

lemma bind (hp : Yields p P) (hf : ∀ a, P a → Yields (f a) R) : Yields (p >>= f) R :=
  fun c => ensures_bind.2 fun a d ha => hf a (hp c a d ha) d

/-- Nothing need be known of what is read first. -/
lemma after (hf : ∀ a, Yields (f a) R) : Yields (p >>= f) R :=
  bind (P := fun _ => True) (fun _ => ensures_true) fun a _ => hf a

lemma ite {b : Prop} [Decidable b] (hp : b → Yields p Q) (hq : ¬ b → Yields q Q) :
    Yields (if b then p else q) Q :=
  fun c => ensures_ite.2 ⟨fun h => hp h c, fun h => hq h c⟩

lemma orElse (hp : Yields p Q) (hq : Yields q Q) : Yields (orElse p q) Q := by
  intro c a d h
  unfold Reading.orElse at h
  cases hc : p c with
  | none => exact hq c a d (by simpa [hc] using h)
  | some r => exact hp c a d (by simpa [hc] using h)

/-- What every round of a repetition keeps holds at its end. -/
lemma loop {a : α} {step : α → Reading (α × Bool)} (h : Q a)
    (hstep : ∀ b, Q b → Yields (step b) fun r => Q r.1) : Yields (loop a step) Q := by
  have hiterate (n : Nat) : ∀ b, Q b → Yields (iterate step n b) Q := by
    induction n with
    | zero => exact fun _ _ => .failure
    | succ n ih =>
      intro b hb
      refine bind (hstep b hb) fun ⟨b', more⟩ hb' => ?_
      cases more with
      | true => exact ih b' hb'
      | false => exact .pure hb'
  exact after fun c => hiterate _ a h

protected lemma node {k : Kind} {start : Position} {cs : List Tree} {Q : Tree → Prop}
    (h : ∀ first last text, Q (.node ⟨k, none, first, last, text⟩ cs)) :
    Yields (node k start cs) Q :=
  fun _ => ensures_node.2 (h _ _ _)

end Yields

/-! ## Comments and parts -/

/-- The comments among the parts of a construct. -/
def AreComments (ts : List Tree) : Prop := ∀ t ∈ ts, t.kind = .comment ∧ t.role = none

/-- A part of a construct, behind comments. -/
def IsPart (Q : Tree → Prop) (ts : List Tree) : Prop :=
  ∃ cs t, ts = cs ++ [t] ∧ AreComments cs ∧ Q t

lemma areComments_nil : AreComments [] := List.forall_mem_nil _

lemma yields_comments : Yields comments AreComments := by
  have hcomments (cs : List Comment) : AreComments (cs.map Comment.tree) := by
    rintro t ht
    obtain ⟨c, -, rfl⟩ := List.mem_map.1 ht
    exact ⟨rfl, rfl⟩
  refine .after fun c => ?_
  split
  · exact .pure areComments_nil
  · exact .after fun _ => .pure (hcomments _)

lemma yields_sign {e : Expected} {s : String} : Yields (sign e s) AreComments :=
  .after fun _ => .ite (fun _ => .bind yields_comments fun _ hcs => .after fun _ => .pure hcs)
    fun _ => .failure

lemma yields_keyword {e : Expected} {w : String} : Yields (keyword e w) AreComments :=
  .after fun _ => .ite (fun _ => .bind yields_comments fun _ hcs => .after fun _ => .pure hcs)
    fun _ => .failure

lemma Yields.part {p : Reading Tree} {Q : Tree → Prop} (hp : Yields p Q) :
    Yields (part p) (IsPart Q) :=
  .bind yields_comments fun cs hcs => .bind hp fun t ht => .pure ⟨cs, t, rfl, hcs, ht⟩

lemma Yields.partAs {p : Reading Tree} {Q : Tree → Prop} {r : Role} (hp : Yields p Q) :
    Yields (partAs r p) (IsPart fun t => ∃ u, t = u.withRole r ∧ Q u) :=
  .part (.bind hp fun u hu => .pure ⟨u, rfl, hu⟩)

/-- A property of comments and of a part is one of the part with the comments in front of it. -/
lemma IsPart.forall_mem {P Q : Tree → Prop} {ts : List Tree} (h : IsPart Q ts)
    (hcomment : ∀ t, t.kind = .comment → P t) (hQ : ∀ t, Q t → P t) : ∀ t ∈ ts, P t := by
  obtain ⟨cs, t, rfl, hcs, ht⟩ := h
  intro u hu
  rcases List.mem_append.1 hu with hu | hu
  · exact hcomment u (hcs u hu).1
  · exact List.mem_singleton.1 hu ▸ hQ t ht

end Reading

end AddonAtlas.Source
