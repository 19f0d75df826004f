import AddonAtlas.Proofs.Source.Literals
import AddonAtlas.Proofs.Source.Reading

/-!
The statements of a module.

Each reading of a statement ends in a node of its own kind. So a node of a module is an import
statement only where one was read, and what is known of those that are read is known of those that
stand in a module.
-/

namespace AddonAtlas.Source

open Reading

/-- Kinds of statements that import. -/
def isImport : Kind → Bool
  | .importStatement | .importFromStatement | .futureImportStatement => true
  | _ => false

namespace Grammar

variable (self : Goal → Reading Tree) (inner : StatementGoal → Reading (List Tree))
variable {k : Kind} {w : String} {rest : Reading (List Tree)} {optional : Bool}

/-! ## Kinds of statements -/

lemma kind_leaf : Yields (leaf k) fun t => t.kind = k := fun c => by simp [leaf]

lemma kind_expressionStatement :
    Yields (expressionStatement self) fun t => t.kind = .expressionStatement :=
  fun c => by simp [expressionStatement]

lemma kind_printStatement : Yields (printStatement self) fun t => t.kind = .printStatement :=
  fun c => by simp [printStatement]

lemma kind_execStatement : Yields (execStatement self) fun t => t.kind = .execStatement := by
  refine .after fun _ => .after fun _ => .after fun t => ?_
  dsimp only
  split <;> exact fun c => by simp

lemma kind_keywordStatement : Yields (keywordStatement self w k optional) fun t => t.kind = k :=
  fun c => by simp [keywordStatement]

lemma kind_raiseStatement : Yields (raiseStatement self) fun t => t.kind = .raiseStatement :=
  fun c => by simp [raiseStatement]

lemma kind_assertStatement : Yields (assertStatement self) fun t => t.kind = .assertStatement :=
  fun c => by simp [assertStatement]

lemma kind_namesStatement : Yields (namesStatement w k) fun t => t.kind = k :=
  fun c => by simp [namesStatement]

lemma kind_typeAliasStatement :
    Yields (typeAliasStatement self) fun t => t.kind = .typeAliasStatement :=
  fun c => by simp [typeAliasStatement]

lemma kind_conditionClause : Yields (conditionClause self inner w k rest) fun t => t.kind = k :=
  fun c => by simp [conditionClause]

lemma kind_forStatement : Yields (forStatement self inner) fun t => t.kind = .forStatement :=
  fun c => by simp [forStatement]

lemma kind_withStatement : Yields (withStatement self inner) fun t => t.kind = .withStatement :=
  fun c => by simp [withStatement]

lemma kind_tryStatement : Yields (tryStatement self inner) fun t => t.kind = .tryStatement :=
  fun c => by simp [tryStatement]

lemma kind_functionDefinition :
    Yields (functionDefinition self inner) fun t => t.kind = .functionDefinition :=
  fun c => by simp [functionDefinition]

lemma kind_classDefinition :
    Yields (classDefinition self inner) fun t => t.kind = .classDefinition :=
  fun c => by simp [classDefinition]

lemma kind_decoratedDefinition :
    Yields (decoratedDefinition self inner) fun t => t.kind = .decoratedDefinition :=
  fun c => by simp [decoratedDefinition]

lemma kind_matchStatement :
    Yields (matchStatement self inner) fun t => t.kind = .matchStatement := by
  repeat refine .after fun _ => ?_
  dsimp only
  split <;> exact fun c => by simp

/-! ## Where import statements stand -/

section

variable {Q : Tree → Prop} (hother : ∀ t : Tree, isImport t.kind = false → Q t)
  (himport : Yields importStatement Q) (hfrom : Yields importFrom Q)

include hother

lemma yields_of_kind {p : Reading Tree} (hp : Yields p fun t => t.kind = k)
    (hk : isImport k = false) : Yields p Q :=
  hp.mono fun t ht => hother t (ht ▸ hk)

lemma forall_mem_part {ts : List Tree} (h : IsPart Q ts) : ∀ t ∈ ts, Q t :=
  h.forall_mem (fun t ht => hother t (ht ▸ rfl)) fun _ => id

lemma forall_mem_comments {ts : List Tree} (h : AreComments ts) : ∀ t ∈ ts, Q t :=
  fun t ht => hother t ((h t ht).1 ▸ rfl)

include himport hfrom

lemma yields_simpleStatement : Yields (simpleStatement self) Q := by
  have of_kind {k : Kind} {p : Reading Tree} (hp : Yields p fun t => t.kind = k)
      (hk : isImport k = false) : Yields p Q := yields_of_kind hother hp hk
  have whole_of {p : Reading Tree} (hp : Yields p Q) : Yields (whole p) Q :=
    .bind hp fun t ht => .after fun _ => .ite (fun _ => .pure ht) fun _ => .failure
  have hplain : Yields (expressionStatement self) Q := of_kind (kind_expressionStatement self) rfl
  have hprint : Yields (printStatement self) Q := of_kind (kind_printStatement self) rfl
  refine .after fun t => ?_
  -- one case for each word that begins a statement of its own
  dsimp only
  split
  · exact himport
  · exact hfrom
  · exact .after fun _ => .after fun _ => .after fun _ => .after fun _ =>
      .ite (fun _ => hprint) fun _ => .orElse (whole_of hplain) hprint
  · exact .orElse (of_kind (kind_execStatement self) rfl) hplain
  · exact .orElse (whole_of (of_kind (kind_typeAliasStatement self) rfl)) hplain
  · exact of_kind (kind_assertStatement self) rfl
  · exact of_kind (kind_keywordStatement self) rfl
  · exact of_kind (kind_keywordStatement self) rfl
  · exact of_kind (kind_raiseStatement self) rfl
  · exact of_kind kind_leaf rfl
  · exact of_kind kind_leaf rfl
  · exact of_kind kind_leaf rfl
  · exact of_kind kind_namesStatement rfl
  · exact of_kind kind_namesStatement rfl
  · exact hplain

lemma yields_simpleStatements : Yields (simpleStatements self) fun ts => ∀ t ∈ ts, Q t := by
  have hpart : Yields (part (simpleStatement self)) fun ts => ∀ t ∈ ts, Q t :=
    (yields_simpleStatement self hother himport hfrom).part.mono fun _ => forall_mem_part hother
  refine .bind hpart fun first hfirst => .bind (P := fun ts => ∀ t ∈ ts, Q t)
    (.loop hfirst fun cs hcs => ?_) fun cs hcs => ?_
  · refine .after fun _ => .ite (fun _ => ?_) fun _ => .pure hcs
    refine .bind yields_sign fun s hs => .after fun _ => ?_
    have hcomments := List.forall_mem_append.2 ⟨hcs, forall_mem_comments hother hs⟩
    exact .ite (fun _ => .pure hcomments) fun _ =>
      .bind hpart fun ts hts => .pure (List.forall_mem_append.2 ⟨hcomments, hts⟩)
  · refine .after fun _ => .ite (fun _ => ?_) fun _ => .failure
    exact .bind yields_comments fun z hz => .after fun _ =>
      .pure (List.forall_mem_append.2 ⟨hcs, forall_mem_comments hother hz⟩)

lemma yields_statement : Yields (statement self inner) fun ts => ∀ t ∈ ts, Q t := by
  have hsimple := yields_simpleStatements self hother himport hfrom
  have one {k : Kind} {p : Reading Tree} (hp : Yields p fun t => t.kind = k)
      (hk : isImport k = false) : Yields (part p) fun ts => ∀ t ∈ ts, Q t :=
    (yields_of_kind hother hp hk).part.mono fun _ => forall_mem_part hother
  refine .after fun t => ?_
  dsimp only
  split
  · exact one (kind_conditionClause self inner) rfl
  · exact one (kind_forStatement self inner) rfl
  · exact one (kind_conditionClause self inner) rfl
  · exact one (kind_tryStatement self inner) rfl
  · exact one (kind_withStatement self inner) rfl
  · exact one (kind_functionDefinition self inner) rfl
  · exact one (kind_classDefinition self inner) rfl
  · exact .orElse (one (kind_matchStatement self inner) rfl) hsimple
  · refine .after fun w => ?_
    split
    · exact one (kind_forStatement self inner) rfl
    · exact one (kind_withStatement self inner) rfl
    · exact one (kind_functionDefinition self inner) rfl
    · exact hsimple
  · exact one (kind_decoratedDefinition self inner) rfl
  · exact hsimple

lemma yields_module : Yields module fun root => ∀ t ∈ root.children, Q t := by
  refine .after fun c => .after fun _ => .bind (P := fun ts => ∀ t ∈ ts, Q t)
    (.loop (List.forall_mem_nil _) fun cs hcs => ?_) fun cs hcs => .node fun _ _ _ => hcs
  -- a round reads the end of the text, with the comments in front of it, or a statement
  refine .after fun _ => .ite (fun _ => ?_) fun _ => ?_
  · exact .bind yields_comments fun z hz => .after fun _ =>
      .pure (List.forall_mem_append.2 ⟨hcs, forall_mem_comments hother hz⟩)
  · exact .bind (yields_statement _ _ hother himport hfrom) fun ts hts =>
      .pure (List.forall_mem_append.2 ⟨hcs, hts⟩)

end

end Grammar

/-- What is known of all import statements that are read, and of all nodes that are none, is known
of what stands in a module. -/
lemma forall_mem_children_of_parse {Q : Tree → Prop} {text : String} {root : Tree}
    (hother : ∀ t : Tree, isImport t.kind = false → Q t)
    (himport : Yields Grammar.importStatement Q) (hfrom : Yields Grammar.importFrom Q)
    (h : parse text = some root) :
    ∀ t ∈ root.children, Q t := by
  obtain ⟨⟨t, d⟩, hread, rfl⟩ := Option.map_eq_some_iff.1 h
  exact Grammar.yields_module hother himport hfrom _ t d hread

end AddonAtlas.Source
