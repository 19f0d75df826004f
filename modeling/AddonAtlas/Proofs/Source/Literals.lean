import AddonAtlas.Source.Grammar.Statement
import AddonAtlas.Source.Literal
import Mathlib.Data.List.Find

/-!
Which modules have a literal value.

An expression has a value just if it is a literal throughout: no node of it is of another kind,
its numbers can be read, and its signs stand before numbers. A module has one if it is a single
expression statement whose first expression is a literal. Further expressions of the statement are
never looked at.
-/

namespace AddonAtlas.Source

namespace Tree

mutual

/-- Whether every node passes a test. -/
def all (p : Tree → Bool) : Tree → Bool
  | .node l cs => p (.node l cs) && allIn p cs

def allIn (p : Tree → Bool) : List Tree → Bool
  | [] => true
  | t :: r => all p t && allIn p r

end

/-- Whether a child is neither an anonymous token nor a comment. -/
def isPart (t : Tree) : Bool := t.isNamed && t.kind != .comment

variable {p : Tree → Bool} {l : Label} {cs : List Tree} {t : Tree}

@[simp] lemma kind_node : (Tree.node l cs).kind = l.kind := rfl

@[simp] lemma children_node : (Tree.node l cs).children = cs := rfl

lemma isPart_iff : t.isPart = true ↔ t.kind ≠ .token ∧ t.kind ≠ .comment := by
  simp [isPart, isNamed]

lemma not_isPart_iff : t.isPart = false ↔ t.kind = .token ∨ t.kind = .comment := by
  rw [← Bool.not_eq_true, isPart_iff, not_and_or, not_not, not_not]

lemma allIn_iff : allIn p cs = true ↔ ∀ c ∈ cs, c.all p = true := by
  induction cs with
  | nil => simp [allIn]
  | cons c cs ih => simp [allIn, ih]

lemma all_node :
    (Tree.node l cs).all p = true ↔ p (.node l cs) = true ∧ ∀ c ∈ cs, c.all p = true := by
  rw [all, Bool.and_eq_true, allIn_iff]

lemma parts_eq (t : Tree) : t.parts = t.children.filter isPart := by
  simp only [parts, namedChildren, List.filter_filter]
  exact List.filter_congr fun c _ => Bool.and_comm _ _

/-- Induction over the children of a node. -/
theorem induction {P : Tree → Prop} (h : ∀ l cs, (∀ c ∈ cs, P c) → P (.node l cs)) (t : Tree) :
    P t := by
  refine @Tree.rec P (fun cs => ∀ c ∈ cs, P c) h ?_ ?_ t
  · simp
  · intro c cs hc hcs
    exact List.forall_mem_cons.2 ⟨hc, hcs⟩

end Tree

/-- Kinds of expressions that have a literal value. -/
def Kind.isLiteral : Kind → Bool
  | .dictionary | .list | .tuple | .set | .string | .concatenatedString | .integer | .float
  | .trueLiteral | .falseLiteral | .noneLiteral | .parenthesizedExpression | .unaryOperator => true
  | _ => false

/-- Kinds of nodes that literals are made of and that are no expressions themselves. -/
def Kind.isFragment : Kind → Bool
  | .pair | .stringStart | .stringContent | .stringEnd | .escapeSequence | .escapeInterpolation
  | .comment | .token => true
  | _ => false

namespace Literal

/-! ## What the grammar licenses -/

/-- The children that the grammar of the language gives to comments, to tokens and to the kinds of
nodes that literals are made of. Nodes of other kinds may have any children. -/
def licensed : Tree → Bool
  | .node l cs => match l.kind with
    | .comment => cs.isEmpty && l.role.isNone
    | .token => cs.isEmpty && (l.role.isNone || l.role == some .operator)
    | .stringStart | .stringEnd | .escapeSequence | .escapeInterpolation | .integer | .float
    | .trueLiteral | .falseLiteral | .noneLiteral => cs.isEmpty
    | .stringContent =>
      cs.all fun c => [Kind.token, .escapeSequence, .escapeInterpolation].contains c.kind
    | .string =>
      cs.all fun c => [Kind.stringStart, .stringContent, .interpolation, .stringEnd].contains c.kind
    | .concatenatedString => (cs.filter Tree.isPart).all fun c => c.kind == .string
    | .dictionary =>
      (cs.filter Tree.isPart).all fun c => [Kind.pair, .dictionarySplat].contains c.kind
    | .pair => expressions (cs.filter Tree.isPart) [some .key, some .value]
    | .unaryOperator => expressions (cs.filter Tree.isPart) [some .argument]
    | .parenthesizedExpression =>
      (cs.filter Tree.isPart).length == 1 && notFragments (cs.filter Tree.isPart)
    | .list | .tuple | .set => notFragments (cs.filter Tree.isPart)
    | _ => true
where
  notFragments (cs : List Tree) : Bool := cs.all fun c => !c.kind.isFragment
  expressions (cs : List Tree) (roles : List (Option Role)) : Bool :=
    cs.map Tree.role == roles && notFragments cs

/-- Every node of the tree has the children that the grammar gives to its kind. -/
def Licensed (t : Tree) : Prop := t.all licensed = true

/-! ## What literals are made of -/

mutual

/-- Whether an expression writes a number, perhaps with signs and in brackets. -/
def isNumeric : Tree → Bool
  | .node l cs => match l.kind with
    | .integer | .float | .unaryOperator => true
    | .parenthesizedExpression => firstIsNumeric cs
    | _ => false

def firstIsNumeric : List Tree → Bool
  | [] => false
  | t :: r => if t.isPart then isNumeric t else firstIsNumeric r

end

/-- The operator among the children of a node. -/
def operatorText (cs : List Tree) : String :=
  ((cs.find? fun c => c.role == some .operator).map Tree.text).getD ""

/-- Whether a node can be part of a literal. Numbers have to be readable, and what stands before a
number is a plus or a minus. -/
def isLiteralNode : Tree → Bool
  | .node l cs => (l.kind.isLiteral || l.kind.isFragment) && match l.kind with
    | .integer => (integer l.text).isOk
    | .float => (float l.text).isOk
    | .unaryOperator =>
      ["+", "-"].contains (operatorText cs) && (cs.filter Tree.isPart).all isNumeric
    | _ => true

/-- An expression that is a literal throughout. -/
def IsLiteral (t : Tree) : Prop := t.kind.isLiteral = true ∧ t.all isLiteralNode = true

/-- A module of one expression statement, which holds one expression, which is a literal; comments
apart. -/
def IsOneLiteral (root : Tree) : Prop :=
  ∃ statement e, root.parts = [statement] ∧ statement.kind = .expressionStatement ∧
    statement.parts = [e] ∧ IsLiteral e

variable {l : Label} {cs : List Tree} {t c : Tree} {v : Value}

/-! ## Reading lists of children -/

lemma isOk_iff {ε α : Type*} {x : Except ε α} : x.isOk = true ↔ ∃ a, x = .ok a := by
  cases x with
  | error e => simp [Except.isOk, Except.toBool]
  | ok a => simp [Except.isOk, Except.toBool]

lemma exists_bind {ε α β : Type} {x : Except ε α} {f : α → Except ε β} :
    (∃ b, x >>= f = .ok b) ↔ ∃ a, x = .ok a ∧ ∃ b, f a = .ok b := by
  cases x with
  | error e => simp [bind, Except.bind]
  | ok a => simp [bind, Except.bind]

lemma exists_pure {ε α : Type} {a : α} : ∃ b, (pure a : Except ε α) = .ok b := ⟨a, rfl⟩

lemma first_eq (cs : List Tree) :
    first cs = ((cs.filter Tree.isPart).head?).map evaluate := by
  induction cs with
  | nil => simp [first]
  | cons c cs ih =>
    rw [first]
    cases h : c.isNamed && c.kind != .comment with
    | true => simp [Tree.isPart, h]
    | false => simp [Tree.isPart, h, ih]

lemma firstIsNumeric_eq (cs : List Tree) :
    firstIsNumeric cs = ((cs.filter Tree.isPart).head?).any isNumeric := by
  induction cs with
  | nil => simp [firstIsNumeric]
  | cons c cs ih =>
    rw [firstIsNumeric]
    cases h : c.isPart with
    | true => simp [h]
    | false => simp [h, ih]

lemma playing_eq (r : Role) (cs : List Tree) :
    playing r cs = (cs.find? fun c => c.role == some r).map evaluate := by
  induction cs with
  | nil => simp [playing]
  | cons c cs ih =>
    rw [playing]
    cases h : c.role == some r with
    | true => simp [h]
    | false => simp [h, ih]

/-- All items have values just if each part has one. -/
lemma exists_items :
    (∃ vs, items cs = .ok vs) ↔ ∀ c ∈ cs.filter Tree.isPart, ∃ v, evaluate c = .ok v := by
  induction cs with
  | nil => simp [items]
  | cons c cs ih =>
    rw [items]
    cases h : c.isNamed && c.kind != .comment with
    | false =>
      have hpart : c.isPart = false := h
      simp [hpart, ih]
    | true =>
      have hpart : c.isPart = true := h
      simp only [if_true, List.filter_cons_of_pos hpart, List.forall_mem_cons, ← ih, exists_bind,
        exists_pure, and_true, exists_and_right]

/-- A pair whose key and value have values. -/
def PairValued (t : Tree) : Prop :=
  (∃ k, playing .key t.children = some (.ok k)) ∧ ∃ v, playing .value t.children = some (.ok v)

lemma exists_entries {fields : List (String × Value)} :
    (∃ out, entries cs fields = .ok out) ↔
      ∀ c ∈ cs.filter Tree.isPart, c.kind = .pair ∧ PairValued c := by
  induction cs generalizing fields with
  | nil => simp [entries]
  | cons c cs ih =>
    obtain ⟨l, ds⟩ := c
    rw [entries]
    split
    · rename_i hk
      rw [List.filter_cons_of_neg (by simp [Tree.isPart_iff, hk]), ih]
    · rename_i hk
      rw [List.filter_cons_of_neg (by simp [Tree.isPart_iff, hk]), ih]
    · rename_i hk
      rw [List.filter_cons_of_pos (by simp [Tree.isPart_iff, hk]), List.forall_mem_cons]
      simp only [PairValued, Tree.children_node, Tree.kind_node, hk, true_and]
      rcases playing .key ds with _ | k
      · simp
      · rcases playing .value ds with _ | v
        · simp
        · simp only [exists_bind, ih, Option.some.injEq, exists_and_right, and_assoc]
          rfl
    · rename_i hcomment htoken hpair
      have hpart : (Tree.node l ds).isPart = true := Tree.isPart_iff.2 ⟨htoken, hcomment⟩
      rw [List.filter_cons_of_pos hpart, List.forall_mem_cons]
      refine iff_of_false (by simp) ?_
      rintro ⟨⟨hk, -⟩, -⟩
      exact hpair hk

/-- A string has a text just if nothing is interpolated. -/
lemma exists_stringParts {raw : Bool} :
    (∃ s, stringParts raw cs = .ok s) ↔ ∀ c ∈ cs, c.kind ≠ .interpolation := by
  induction cs generalizing raw with
  | nil => simp [stringParts]
  | cons c cs ih =>
    rw [stringParts, List.forall_mem_cons]
    split
    · rename_i hk
      rw [ih, and_iff_right (by simp [hk])]
    · rename_i hk
      rw [and_iff_right (by simp [hk]), ← @ih raw]
      simp only [exists_bind, exists_pure, and_true]
    · rename_i hk
      rw [and_iff_right (by simp [hk]), ← @ih raw]
      simp only [exists_bind, exists_pure, and_true]
    · rename_i hk
      simp [hk]
    · rename_i hk
      rw [ih, and_iff_right hk]

lemma exists_stringValues :
    (∃ s, stringValues cs = .ok s) ↔
      ∀ c ∈ cs, c.kind = .string → ∀ d ∈ c.children, d.kind ≠ .interpolation := by
  induction cs with
  | nil => simp [stringValues]
  | cons c cs ih =>
    rw [stringValues, List.forall_mem_cons, ← ih]
    split
    · rename_i hk
      have hstring : c.kind = .string := by simpa using hk
      rw [← @exists_stringParts _ false, stringValue]
      simp only [hstring, true_imp_iff, exists_bind, exists_pure, and_true, exists_and_right]
    · rename_i hk
      rw [and_iff_right fun h => absurd (by simp [h]) hk]

/-! ## Signs -/

/-- Whether a value can have a sign. -/
def IsNumber (v : Value) : Prop := (negate? v).isSome = true

lemma isNumber_finite {x : Option Float} (h : x.bind finite? = some v) : IsNumber v := by
  obtain ⟨y, -, hy⟩ := Option.bind_eq_some_iff.1 h
  unfold finite? at hy
  split at hy
  · cases hy
    rfl
  · cases hy

lemma isNumber_integer {text : String} (h : integer text = .ok v) : IsNumber v := by
  unfold integer at h
  dsimp only at h
  split at h
  · cases h
    rfl
  · split at h
    · rename_i hfloat
      cases h
      exact isNumber_finite hfloat
    · cases h

lemma isNumber_float {text : String} (h : float text = .ok v) : IsNumber v := by
  unfold float at h
  split at h
  · rename_i hfloat
    cases h
    exact isNumber_finite hfloat
  · cases h

/-- The value of a sign before a value. -/
def signed (l : Label) (operator : String) (v : Value) : Except LiteralError Value :=
  match operator, v with
  | "+", .int n => .ok (.int n)
  | "+", .float x => .ok (.float x)
  | "-", v => match negate? v with
    | some w => .ok w
    | none => .error (unsupported l)
  | _, _ => .error (unsupported l)

lemma evaluate_unaryOperator (hk : l.kind = .unaryOperator) :
    evaluate (.node l cs) =
      (playing .argument cs).getD (.error (unsupported l)) >>= signed l (operatorText cs) := by
  rw [evaluate, hk]
  cases playing .argument cs with
  | none => rfl
  | some r => rfl

lemma exists_signed {operator : String} :
    (∃ w, signed l operator v = .ok w) ↔ (operator = "+" ∨ operator = "-") ∧ IsNumber v := by
  by_cases hplus : operator = "+"
  · subst hplus
    cases v <;> simp [signed, IsNumber, negate?]
  · by_cases hminus : operator = "-"
    · subst hminus
      cases v <;> simp [signed, IsNumber, negate?]
    · simp [signed, hplus, hminus]

lemma isNumber_negate {w : Value} (h : negate? v = some w) : IsNumber w := by
  cases v <;> cases h <;> rfl

lemma isNumber_signed {operator : String} {w : Value} (h : signed l operator v = .ok w) :
    IsNumber w := by
  unfold signed at h
  split at h
  · cases h
    rfl
  · cases h
    rfl
  · split at h
    · rename_i hv
      cases h
      exact isNumber_negate hv
    · cases h
  · cases h

lemma isNumber_signed_of_bind {x : Except LiteralError Value} {operator : String}
    (h : x >>= signed l operator = .ok v) : IsNumber v := by
  cases x with
  | error e => cases h
  | ok w => exact isNumber_signed h

lemma not_isNumber_of_bind {α : Type} {x : Except LiteralError α} {f : α → Value}
    (hf : ∀ a, negate? (f a) = none) (h : (do return f (← x)) = Except.ok v) : ¬ IsNumber v := by
  cases x with
  | error e => cases h
  | ok a =>
    cases h
    simp [IsNumber, hf]

/-- The value of an expression is a number just if the expression writes one. -/
theorem isNumber_iff (h : evaluate t = .ok v) : IsNumber v ↔ isNumeric t = true := by
  induction t using Tree.induction generalizing v with
  | h l cs ih =>
    -- What a sign gives is a number whatever follows it; brackets pass on what they hold.
    by_cases hsign : l.kind = .unaryOperator
    · rw [evaluate_unaryOperator hsign] at h
      simp only [isNumeric, hsign, iff_true]
      exact isNumber_signed_of_bind h
    rw [evaluate] at h
    split at h <;> rename_i hk <;> simp only [isNumeric, hk]
    case h_7 => exact iff_of_true (isNumber_integer h) trivial
    case h_8 => exact iff_of_true (isNumber_float h) trivial
    case h_12 =>
      rw [first_eq] at h
      rw [firstIsNumeric_eq]
      cases hparts : (cs.filter Tree.isPart) with
      | nil =>
        rw [hparts] at h
        cases h
      | cons e more =>
        rw [hparts] at h
        have he : e ∈ cs := (List.mem_filter.1 (hparts ▸ List.mem_cons_self)).1
        exact ih e he h
    case h_13 => exact absurd hk hsign
    case h_14 => cases h
    case h_9 | h_10 | h_11 =>
      cases h
      simp [IsNumber, negate?]
    all_goals exact iff_of_false (not_isNumber_of_bind (fun _ => rfl) h) Bool.false_ne_true

/-! ## Parts of licensed nodes -/

lemma licensed_node :
    Licensed (.node l cs) ↔ licensed (.node l cs) = true ∧ ∀ c ∈ cs, Licensed c :=
  Tree.all_node

lemma isLiteral_iff (h : t.kind.isFragment = false) : IsLiteral t ↔ t.all isLiteralNode = true := by
  obtain ⟨l, cs⟩ := t
  refine and_iff_right_of_imp fun hall => ?_
  have hnode := (Tree.all_node.1 hall).1
  rw [Tree.kind_node] at h ⊢
  simpa [isLiteralNode, h] using (Bool.and_eq_true_iff.1 hnode).1

lemma not_all_isLiteralNode (hliteral : t.kind.isLiteral = false)
    (hfragment : t.kind.isFragment = false) : ¬ t.all isLiteralNode = true := by
  rw [← isLiteral_iff hfragment, IsLiteral, hliteral]
  simp

/-- The fragments other than pairs are as the grammar makes them. -/
lemma all_isLiteralNode_of_isFragment (ht : Licensed t) (hk : t.kind.isFragment = true)
    (hpair : t.kind ≠ .pair) : t.all isLiteralNode = true := by
  induction t using Tree.induction with
  | h l cs ih =>
    obtain ⟨hl, hcs⟩ := licensed_node.1 ht
    rw [Tree.kind_node] at hk hpair
    have hnode : isLiteralNode (.node l cs) = true := by
      rw [isLiteralNode, hk, Bool.or_true, Bool.true_and]
      split <;> rename_i hkind <;> first | rfl | exact absurd hk (by simp [hkind, Kind.isFragment])
    refine Tree.all_node.2 ⟨hnode, ?_⟩
    by_cases hcontent : l.kind = .stringContent
    · intro c hc
      simp only [licensed, hcontent, List.all_eq_true] at hl
      have hkind := hl c hc
      simp only [List.contains_eq_mem, List.mem_cons, List.not_mem_nil, or_false,
        decide_eq_true_eq] at hkind
      refine ih c hc (hcs c hc) ?_ ?_
      all_goals rcases hkind with h | h | h <;> simp [h, Kind.isFragment]
    · have hempty : cs = [] := by
        unfold Kind.isFragment at hk
        split at hk <;> rename_i hkind <;> simp_all [licensed]
      simp [hempty]

/-- What is no part of a node has nothing to refuse. -/
lemma forall_all_isLiteralNode (hcs : ∀ c ∈ cs, Licensed c) :
    (∀ c ∈ cs, c.all isLiteralNode = true) ↔
      ∀ c ∈ cs.filter Tree.isPart, c.all isLiteralNode = true := by
  refine ⟨fun h c hc => h c (List.mem_filter.1 hc).1, fun h c hc => ?_⟩
  cases hpart : c.isPart with
  | true => exact h c (List.mem_filter.2 ⟨hc, hpart⟩)
  | false =>
    refine all_isLiteralNode_of_isFragment (hcs c hc) ?_ ?_
    all_goals rcases Tree.not_isPart_iff.1 hpart with hk | hk <;> simp [hk, Kind.isFragment]

/-- What is no part of a node plays no role but the operator's. -/
lemma find?_role {r : Role} (hr : r ≠ .operator) (hcs : ∀ c ∈ cs, Licensed c) :
    (cs.find? fun c => c.role == some r) =
      (cs.filter Tree.isPart).find? fun c => c.role == some r := by
  rw [List.find?_filter]
  refine List.find?_congr fun c hc => ?_
  cases hpart : c.isPart with
  | true => simp only [true_and, Bool.decide_eq_true]
  | false =>
    obtain ⟨l, ds⟩ := c
    have hrole : l.role = none ∨ l.role = some .operator := by
      have hl := (licensed_node.1 (hcs _ hc)).1
      rcases Tree.not_isPart_iff.1 hpart with hk | hk
      all_goals
        rw [Tree.kind_node] at hk
        simp only [licensed, hk, Bool.and_eq_true, Option.isNone_iff_eq_none, Bool.or_eq_true,
          beq_iff_eq] at hl
      · exact hl.2
      · exact .inl hl.2
    rcases hrole with h | h <;> simp [Tree.role, Tree.label, h, hr.symm]

lemma playing_eq_find? {r : Role} (hr : r ≠ .operator) (hcs : ∀ c ∈ cs, Licensed c) :
    playing r cs =
      ((cs.filter Tree.isPart).find? fun c => c.role == some r).map evaluate := by
  rw [playing_eq, find?_role hr hcs]

/-! ## What has a value -/

/-- What an expression and a pair need for a value. -/
structure Decided (t : Tree) : Prop where
  literal : (∃ v, evaluate t = .ok v) ↔ IsLiteral t
  pair : t.kind = .pair → (PairValued t ↔ t.all isLiteralNode = true)

lemma exists_return {α : Type} {x : Except LiteralError α} {f : α → Value} :
    (∃ w, (do return f (← x)) = Except.ok w) ↔ ∃ a, x = .ok a := by
  simp only [exists_bind, exists_pure, and_true]

/-- An expression that holds literals alone. -/
lemma isLiteral_node (hcs : ∀ c ∈ cs, Licensed c) (hk : l.kind.isLiteral = true)
    (hnode : isLiteralNode (.node l cs) = true) :
    IsLiteral (.node l cs) ↔ ∀ c ∈ cs.filter Tree.isPart, c.all isLiteralNode = true := by
  rw [IsLiteral, Tree.kind_node, and_iff_right hk, Tree.all_node, and_iff_right hnode,
    forall_all_isLiteralNode hcs]

/-- Expressions have values just if they are literals. -/
lemma forall_valued {es : List Tree} (hes : licensed.notFragments es = true)
    (ih : ∀ c ∈ es, Decided c) :
    (∀ c ∈ es, ∃ v, evaluate c = .ok v) ↔ ∀ c ∈ es, c.all isLiteralNode = true := by
  refine forall₂_congr fun c hc => ?_
  have hfragment : c.kind.isFragment = false := by
    simpa using List.all_eq_true.1 hes c hc
  rw [(ih c hc).literal, isLiteral_iff hfragment]

/-- A string is a literal just if nothing is interpolated. -/
lemma isLiteral_string (hl : licensed (.node l cs) = true) (hcs : ∀ c ∈ cs, Licensed c)
    (hk : l.kind = .string) : IsLiteral (.node l cs) ↔ ∀ c ∈ cs, c.kind ≠ .interpolation := by
  rw [licensed, hk, List.all_eq_true] at hl
  rw [IsLiteral, Tree.all_node, and_iff_right (by simp [hk, Kind.isLiteral]),
    and_iff_right (by simp [isLiteralNode, hk, Kind.isLiteral])]
  refine forall₂_congr fun c hc => ⟨fun hall hinterpolation => ?_, fun hother => ?_⟩
  · exact not_all_isLiteralNode (by simp [hinterpolation, Kind.isLiteral])
      (by simp [hinterpolation, Kind.isFragment]) hall
  · have hkind := hl c hc
    simp only [List.contains_eq_mem, List.mem_cons, List.not_mem_nil, or_false,
      decide_eq_true_eq, hother, false_or] at hkind
    refine all_isLiteralNode_of_isFragment (hcs c hc) ?_ ?_
    all_goals rcases hkind with h | h | h <;> simp [h, Kind.isFragment]

lemma exists_evaluate_string (hl : licensed (.node l cs) = true) (hcs : ∀ c ∈ cs, Licensed c)
    (hk : l.kind = .string) : (∃ v, evaluate (.node l cs) = .ok v) ↔ IsLiteral (.node l cs) := by
  have hstring : evaluate (.node l cs) = (do return .text (← stringParts false cs)) := by
    rw [evaluate, hk]
  rw [hstring, exists_return, exists_stringParts, isLiteral_string hl hcs hk]

lemma exists_evaluate_concatenatedString (hl : licensed (.node l cs) = true)
    (hcs : ∀ c ∈ cs, Licensed c) (hk : l.kind = .concatenatedString) :
    (∃ v, evaluate (.node l cs) = .ok v) ↔ IsLiteral (.node l cs) := by
  have hstrings : evaluate (.node l cs) = (do return .text (← stringValues cs)) := by
    rw [evaluate, hk]
  rw [licensed, hk, List.all_eq_true] at hl
  have hstring {c : Tree} (hc : c ∈ cs) : c.kind = .string ↔ c.isPart = true := by
    refine ⟨fun h => Tree.isPart_iff.2 (by simp [h]), fun h => ?_⟩
    exact beq_iff_eq.1 (hl c (List.mem_filter.2 ⟨hc, h⟩))
  have hliteral {c : Tree} (hc : c ∈ cs) (hk : c.kind = .string) :
      (∀ d ∈ c.children, d.kind ≠ .interpolation) ↔ c.all isLiteralNode = true := by
    rw [← isLiteral_iff (by simp [hk, Kind.isFragment])]
    obtain ⟨k, ds⟩ := c
    obtain ⟨hlicensed, hds⟩ := licensed_node.1 (hcs _ hc)
    exact (isLiteral_string hlicensed hds hk).symm
  rw [hstrings, exists_return, exists_stringValues, isLiteral_node hcs
    (by simp [hk, Kind.isLiteral]) (by simp [isLiteralNode, hk, Kind.isLiteral])]
  simp only [List.mem_filter, and_imp]
  refine forall₂_congr fun c hc => ?_
  rw [← hstring hc]
  exact imp_congr_right (hliteral hc)

/-- Numbers have values if they can be read; true, false and none have values. -/
lemma exists_evaluate_leaf (hl : licensed (.node l cs) = true) (hk : l.kind = .integer ∨
    l.kind = .float ∨ l.kind = .trueLiteral ∨ l.kind = .falseLiteral ∨ l.kind = .noneLiteral) :
    (∃ v, evaluate (.node l cs) = .ok v) ↔ IsLiteral (.node l cs) := by
  have hempty : cs = [] := by
    rcases hk with hk | hk | hk | hk | hk <;> simpa [licensed, hk] using hl
  rcases hk with hk | hk | hk | hk | hk <;>
    simp [evaluate, hk, IsLiteral, Tree.all_node, isLiteralNode, Kind.isLiteral, hempty, isOk_iff]

section

variable (hl : licensed (.node l cs) = true) (hcs : ∀ c ∈ cs, Licensed c)
  (ih : ∀ c ∈ cs, Decided c)

include hl hcs ih

lemma exists_evaluate_sequence (hk : l.kind = .list ∨ l.kind = .tuple ∨ l.kind = .set) :
    (∃ v, evaluate (.node l cs) = .ok v) ↔ IsLiteral (.node l cs) := by
  have hes : licensed.notFragments (cs.filter Tree.isPart) = true := by
    rcases hk with hk | hk | hk <;> simpa only [licensed, hk] using hl
  have hnode : l.kind.isLiteral = true ∧ isLiteralNode (.node l cs) = true := by
    rcases hk with hk | hk | hk <;> simp [isLiteralNode, hk, Kind.isLiteral]
  have hitems : evaluate (.node l cs) = (do return .list (← items cs)) := by
    rcases hk with hk | hk | hk <;> rw [evaluate, hk]
  rw [hitems, exists_return, exists_items, isLiteral_node hcs hnode.1 hnode.2,
    forall_valued hes fun c hc => ih c (List.mem_filter.1 hc).1]

lemma exists_evaluate_dictionary (hk : l.kind = .dictionary) :
    (∃ v, evaluate (.node l cs) = .ok v) ↔ IsLiteral (.node l cs) := by
  have hpairs : ∀ c ∈ cs.filter Tree.isPart, c.kind = .pair ∨ c.kind = .dictionarySplat := by
    intro c hc
    rw [licensed, hk] at hl
    simpa using List.all_eq_true.1 hl c hc
  have hentries : evaluate (.node l cs) = (do return .object (← entries cs [])) := by
    rw [evaluate, hk]
  rw [hentries, exists_return, exists_entries, isLiteral_node hcs (by simp [hk, Kind.isLiteral])
    (by simp [isLiteralNode, hk, Kind.isLiteral])]
  refine forall₂_congr fun c hc => ?_
  have hc' := ih c (List.mem_filter.1 hc).1
  rcases hpairs c hc with hpair | hsplat
  · rw [and_iff_right hpair, hc'.pair hpair]
  · exact iff_of_false (by simp [hsplat]) (not_all_isLiteralNode (by simp [hsplat, Kind.isLiteral])
      (by simp [hsplat, Kind.isFragment]))

lemma exists_evaluate_parenthesized (hk : l.kind = .parenthesizedExpression) :
    (∃ v, evaluate (.node l cs) = .ok v) ↔ IsLiteral (.node l cs) := by
  rw [licensed, hk] at hl
  obtain ⟨hlength, hes⟩ := Bool.and_eq_true_iff.1 hl
  obtain ⟨e, he⟩ := List.length_eq_one_iff.1 (beq_iff_eq.1 hlength)
  have hfirst : evaluate (.node l cs) = evaluate e := by
    rw [evaluate, hk]
    simp only [first_eq, he, List.head?_cons, Option.map_some, Option.getD_some]
  rw [isLiteral_node hcs (by simp [hk, Kind.isLiteral])
      (by simp [isLiteralNode, hk, Kind.isLiteral]),
    ← forall_valued hes fun c hc => ih c (List.mem_filter.1 hc).1, hfirst, he]
  simp

lemma exists_evaluate_unaryOperator (hk : l.kind = .unaryOperator) :
    (∃ v, evaluate (.node l cs) = .ok v) ↔ IsLiteral (.node l cs) := by
  rw [licensed, hk] at hl
  obtain ⟨hroles, hes⟩ := Bool.and_eq_true_iff.1 hl
  obtain ⟨e, he, hrole⟩ := List.map_eq_singleton_iff.1 (beq_iff_eq.1 hroles)
  have hargument : playing .argument cs = some (evaluate e) := by
    rw [playing_eq_find? (by decide) hcs, he]
    simp [hrole]
  have hnode : isLiteralNode (.node l cs) = true ↔
      (operatorText cs = "+" ∨ operatorText cs = "-") ∧ isNumeric e = true := by
    simp [isLiteralNode, hk, Kind.isLiteral, he]
  have hvalued := forall_valued hes fun c hc => ih c (List.mem_filter.1 hc).1
  rw [he, List.forall_mem_singleton, List.forall_mem_singleton] at hvalued
  have hall : IsLiteral (.node l cs) ↔
      ((operatorText cs = "+" ∨ operatorText cs = "-") ∧ isNumeric e = true) ∧
        e.all isLiteralNode = true := by
    rw [IsLiteral, Tree.all_node, hnode, forall_all_isLiteralNode hcs, he,
      List.forall_mem_singleton, and_iff_right (by simp [hk, Kind.isLiteral])]
  rw [hall, ← hvalued, evaluate_unaryOperator hk, hargument, Option.getD_some, exists_bind,
    ← exists_and_left]
  refine exists_congr fun v => ?_
  rw [exists_signed, and_comm]
  exact and_congr_left fun hv => and_congr_right fun _ => isNumber_iff hv

/-- The key and the value of a pair have values just if the pair holds literals. -/
lemma pairValued_iff (hk : l.kind = .pair) :
    PairValued (.node l cs) ↔ (Tree.node l cs).all isLiteralNode = true := by
  rw [licensed, hk] at hl
  obtain ⟨hroles, hes⟩ := Bool.and_eq_true_iff.1 hl
  obtain ⟨key, rest, hparts, hkey, hrest⟩ := List.map_eq_cons_iff.1 (beq_iff_eq.1 hroles)
  obtain ⟨value, rfl, hvalue⟩ := List.map_eq_singleton_iff.1 hrest
  have hvalued := forall_valued hes fun c hc => ih c (List.mem_filter.1 hc).1
  rw [hparts] at hvalued
  rw [Tree.all_node, and_iff_right (by simp [isLiteralNode, hk, Kind.isFragment]),
    forall_all_isLiteralNode hcs, hparts, ← hvalued, PairValued, Tree.children_node,
    playing_eq_find? (by decide) hcs, playing_eq_find? (by decide) hcs, hparts]
  simp [hkey, hvalue]

end

lemma evaluate_of_not_isLiteral (hk : l.kind.isLiteral = false) :
    evaluate (.node l cs) = .error (unsupported l) := by
  rw [evaluate]
  split <;> rename_i h <;> first | rfl | simp [h, Kind.isLiteral] at hk

theorem decided (ht : Licensed t) : Decided t := by
  induction t using Tree.induction with
  | h l cs ih =>
    obtain ⟨hl, hcs⟩ := licensed_node.1 ht
    have ih' : ∀ c ∈ cs, Decided c := fun c hc => ih c hc (hcs c hc)
    refine ⟨?_, pairValued_iff hl hcs ih'⟩
    cases hk : l.kind.isLiteral with
    | false =>
      rw [evaluate_of_not_isLiteral hk]
      simp [IsLiteral, hk]
    | true =>
      unfold Kind.isLiteral at hk
      split at hk <;> rename_i hkind
      · exact exists_evaluate_dictionary hl hcs ih' hkind
      · exact exists_evaluate_sequence hl hcs ih' (by simp [hkind])
      · exact exists_evaluate_sequence hl hcs ih' (by simp [hkind])
      · exact exists_evaluate_sequence hl hcs ih' (by simp [hkind])
      · exact exists_evaluate_string hl hcs hkind
      · exact exists_evaluate_concatenatedString hl hcs hkind
      · exact exists_evaluate_leaf hl (by simp [hkind])
      · exact exists_evaluate_leaf hl (by simp [hkind])
      · exact exists_evaluate_leaf hl (by simp [hkind])
      · exact exists_evaluate_leaf hl (by simp [hkind])
      · exact exists_evaluate_leaf hl (by simp [hkind])
      · exact exists_evaluate_parenthesized hl hcs ih' hkind
      · exact exists_evaluate_unaryOperator hl hcs ih' hkind
      · cases hk

/-! ## Modules -/

lemma evaluateModule_eq_ok {root : Tree} (h : evaluateModule root = .ok v) :
    ∃ statement e more, root.parts = [statement] ∧ statement.kind = .expressionStatement ∧
      statement.namedChildren = e :: more ∧ evaluate e = .ok v := by
  unfold evaluateModule at h
  split at h
  · cases h
  · rename_i statement rest hparts
    cases rest with
    | cons extra rest => cases h
    | nil =>
      dsimp only at h
      split at h
      · rename_i hkind
        cases hnamed : statement.namedChildren with
        | nil =>
          rw [hnamed] at h
          cases h
        | cons e more =>
          rw [hnamed] at h
          exact ⟨statement, e, more, hparts, beq_iff_eq.1 hkind, hnamed, h⟩
      · cases h

lemma evaluateModule_of_parts {root statement e : Tree} {more : List Tree}
    (hroot : root.parts = [statement]) (hkind : statement.kind = .expressionStatement)
    (hnamed : statement.namedChildren = e :: more) : evaluateModule root = evaluate e := by
  rw [evaluateModule, hroot]
  simp only [hkind, hnamed, beq_self_eq_true, if_true]

lemma Licensed.of_mem_children (ht : Licensed t) (hc : c ∈ t.children) : Licensed c := by
  obtain ⟨l, cs⟩ := t
  exact (licensed_node.1 ht).2 c hc

lemma exists_evaluate_iff {root statement e : Tree} {more : List Tree} (hroot : Licensed root)
    (hparts : root.parts = [statement]) (hnamed : statement.namedChildren = e :: more) :
    (∃ v, evaluate e = .ok v) ↔ IsLiteral e := by
  have hstatement : statement ∈ root.parts := by simp [hparts]
  have he : e ∈ statement.namedChildren := by simp [hnamed]
  rw [Tree.parts_eq] at hstatement
  have hlicensed := hroot.of_mem_children (List.mem_filter.1 hstatement).1
  exact (decided (hlicensed.of_mem_children (List.mem_filter.1 he).1)).literal

lemma IsLiteral.kind_ne_comment (ht : IsLiteral t) : t.kind ≠ .comment := by
  intro h
  simp [IsLiteral, h, Kind.isLiteral] at ht

/-- A module has a value just if it is one expression statement whose first expression is a literal.
It is one literal altogether just if no further expressions follow in the statement: they are
passed over. -/
theorem evaluateModule_accepts (root : Tree) (hroot : Licensed root) :
    ((∃ v, evaluateModule root = .ok v) ↔
      ∃ statement e more, root.parts = [statement] ∧ statement.kind = .expressionStatement ∧
        statement.namedChildren = e :: more ∧ IsLiteral e) ∧
    ∀ v, evaluateModule root = .ok v →
      (IsOneLiteral root ↔ ∀ statement ∈ root.parts, statement.parts.length = 1) := by
  refine ⟨⟨?_, ?_⟩, fun v hv => ?_⟩
  · rintro ⟨v, hv⟩
    obtain ⟨statement, e, more, hparts, hkind, hnamed, he⟩ := evaluateModule_eq_ok hv
    have hliteral := (exists_evaluate_iff hroot hparts hnamed).1 ⟨v, he⟩
    exact ⟨statement, e, more, hparts, hkind, hnamed, hliteral⟩
  · rintro ⟨statement, e, more, hparts, hkind, hnamed, he⟩
    rw [evaluateModule_of_parts hparts hkind hnamed]
    exact (exists_evaluate_iff hroot hparts hnamed).2 he
  · obtain ⟨statement, e, more, hparts, hkind, hnamed, he⟩ := evaluateModule_eq_ok hv
    have hliteral := (exists_evaluate_iff hroot hparts hnamed).1 ⟨v, he⟩
    have hstatement : statement.parts = e :: more.filter fun c => c.kind != .comment := by
      rw [Tree.parts, hnamed, List.filter_cons_of_pos (by simpa using hliteral.kind_ne_comment)]
    rw [hparts, List.forall_mem_singleton, hstatement]
    refine ⟨?_, fun hlength => ?_⟩
    · rintro ⟨statement', e', hparts', -, hstatement', -⟩
      obtain rfl : statement = statement' := by simpa using hparts.symm.trans hparts'
      rw [← hstatement, hstatement', List.length_singleton]
    · have hmore : (more.filter fun c => c.kind != .comment) = [] := by
        simpa only [List.length_cons, Nat.add_eq_right, List.length_eq_zero_iff] using hlength
      exact ⟨statement, e, hparts, hkind, by rw [hstatement, hmore], hliteral⟩

theorem evaluateModule_accepts_manifest :
    ∃ root v, parse "\x7b'a': [-1]\x7d" = some root ∧ Licensed root ∧ evaluateModule root = .ok v ∧
      IsOneLiteral root := by
  have hmanifest : (parse "\x7b'a': [-1]\x7d").any (fun root => root.all licensed &&
      (evaluateModule root).isOk && root.parts.all fun statement => statement.parts.length == 1) =
        true := by
    decide +kernel
  obtain ⟨root, hroot, h⟩ := (Option.any_eq_true _ _).1 hmanifest
  simp only [Bool.and_eq_true, List.all_eq_true, beq_iff_eq] at h
  obtain ⟨⟨hlicensed, hok⟩, hone⟩ := h
  obtain ⟨v, hv⟩ := isOk_iff.1 hok
  exact ⟨root, v, hroot, hlicensed, hv, ((evaluateModule_accepts root hlicensed).2 v hv).2 hone⟩

/-- A call behind the comma is passed over. -/
theorem not_isOneLiteral_of_accepted :
    ¬ ∀ root v, Licensed root → evaluateModule root = .ok v → IsOneLiteral root := by
  have hcall : (parse "\x7b'a': 1\x7d, foo()").any (fun root => root.all licensed &&
      (evaluateModule root).isOk && root.parts.all fun statement => statement.parts.length == 2) =
        true := by
    decide +kernel
  obtain ⟨root, -, h⟩ := (Option.any_eq_true _ _).1 hcall
  simp only [Bool.and_eq_true, List.all_eq_true, beq_iff_eq] at h
  obtain ⟨⟨hlicensed, hok⟩, htwo⟩ := h
  obtain ⟨v, hv⟩ := isOk_iff.1 hok
  intro hall
  obtain ⟨statement, e, hparts, -, he, -⟩ := hall root v hlicensed hv
  have hlength := htwo statement (by simp [hparts])
  simp [he] at hlength

end Literal

end AddonAtlas.Source
