import AddonAtlas.Source.Unit
import AddonAtlas.Proofs.Source.Literals
import Mathlib.Algebra.BigOperators.Ring.Finset
import Mathlib.Data.Set.Card

/-!
What a function is measured by.

A walk through the body of a function reaches all nodes but those inside nested definitions. It
meets each decision point that it reaches once, so the complexity counts places in the tree: a
place is the list of positions among named children that leads to it.
-/

namespace AddonAtlas.Source

open Counts

variable {parent k : Kind} {l l' : Label} {cs cs' : List Tree} {t t' u : Tree} {i : Nat}
  {path : List Nat} {c : Counts}

/-! ## Places that a walk reaches -/

/-- A node of the kind `k` is a decision point below a node of the kind `parent`. -/
def IsDecision (parent k : Kind) : Prop :=
  isBranch k = true ∨ k = .elseClause ∧ ownsElse parent = true

/-- From a node below one of the kind `parent`, a node is reached at a place without entering a
definition. It stands below one of the kind `k`. -/
inductive Reaches : (parent : Kind) → Tree → List Nat → (k : Kind) → Tree → Prop
  | here {parent : Kind} {t : Tree} : Reaches parent t [] parent t
  | child {parent k : Kind} {t s u : Tree} {i : Nat} {path : List Nat} :
    t.namedChildren[i]? = some s → isDefinition s.kind = false → Reaches t.kind s path k u →
      Reaches parent t (i :: path) k u

/-- The places of the decision points that are reached from a node below one of the kind `parent`.
-/
def decisions (parent : Kind) (t : Tree) : Set (List Nat) :=
  {path | ∃ k u, Reaches parent t path k u ∧ IsDecision k u.kind}

/-- The places of the decision points that are reached from the nodes of a list below a node of the
kind `k`, definitions left out. -/
def decisionsAmong (k : Kind) (ss : List Tree) : Set (List Nat) :=
  {path | ∃ i s rest, path = i :: rest ∧ ss[i]? = some s ∧ isDefinition s.kind = false ∧
    rest ∈ decisions k s}

lemma nil_mem_decisions : [] ∈ decisions parent t ↔ IsDecision parent t.kind := by
  constructor
  · rintro ⟨k, u, hreach, h⟩
    cases hreach
    exact h
  · exact fun h => ⟨parent, t, .here, h⟩

lemma cons_mem_decisions {rest : List Nat} :
    i :: rest ∈ decisions parent t ↔ i :: rest ∈ decisionsAmong t.kind t.namedChildren := by
  constructor
  · rintro ⟨k, u, hreach, h⟩
    cases hreach with
    | child hs hdefinition hreach => exact ⟨i, _, rest, rfl, hs, hdefinition, k, u, hreach, h⟩
  · rintro ⟨j, s, rest', hpath, hs, hdefinition, k, u, hreach, h⟩
    obtain ⟨rfl, rfl⟩ := List.cons.inj hpath
    exact ⟨k, u, .child hs hdefinition hreach, h⟩

lemma nil_notMem_decisionsAmong {ss : List Tree} : [] ∉ decisionsAmong k ss := by
  rintro ⟨i, s, rest, hpath, -⟩
  cases hpath

/-- The places below a node follow its own. -/
lemma decisions_eq (parent : Kind) (t : Tree) :
    decisions parent t =
      {path | path = [] ∧ IsDecision parent t.kind} ∪ decisionsAmong t.kind t.namedChildren := by
  ext path
  cases path with
  | nil => simp [nil_mem_decisions, nil_notMem_decisionsAmong]
  | cons i rest => simp [cons_mem_decisions]

/-- The same place with the first position one higher. -/
def nextPlace : List Nat → List Nat
  | [] => []
  | i :: rest => (i + 1) :: rest

lemma nextPlace_injective : Function.Injective nextPlace := by
  intro a b h
  cases a <;> cases b <;> simp_all [nextPlace]

lemma decisionsAmong_nil (k : Kind) : decisionsAmong k [] = ∅ := by
  ext path
  simp [decisionsAmong]

lemma decisionsAmong_cons (k : Kind) (s : Tree) (ss : List Tree) :
    decisionsAmong k (s :: ss) =
      List.cons 0 '' {rest | isDefinition s.kind = false ∧ rest ∈ decisions k s} ∪
        nextPlace '' decisionsAmong k ss := by
  ext path
  constructor
  · rintro ⟨i, s', rest, rfl, hs, hdefinition, hrest⟩
    cases i with
    | zero =>
      obtain rfl : s = s' := by simpa using hs
      exact .inl ⟨rest, ⟨hdefinition, hrest⟩, rfl⟩
    | succ i =>
      exact .inr ⟨i :: rest, ⟨i, s', rest, rfl, by simpa using hs, hdefinition, hrest⟩, rfl⟩
  · rintro (⟨rest, ⟨hdefinition, hrest⟩, rfl⟩ | ⟨_, ⟨i, s', rest, rfl, hs, hdefinition, hrest⟩,
      rfl⟩)
    · exact ⟨0, s, rest, rfl, rfl, hdefinition, hrest⟩
    · exact ⟨i + 1, s', rest, rfl, by simpa using hs, hdefinition, hrest⟩

lemma notMem_nextPlaces {A B : Set (List Nat)} {place : List Nat} (hB : [] ∉ B)
    (hplace : place ∈ List.cons 0 '' A) : place ∉ nextPlace '' B := by
  obtain ⟨rest, -, rfl⟩ := hplace
  rintro ⟨path, hpath, h⟩
  cases path with
  | nil => exact hB hpath
  | cons i path => cases h

/-- Different nodes of a list have different places. -/
lemma encard_decisionsAmong (k : Kind) (ss : List Tree) : (decisionsAmong k ss).encard =
    ((ss.filter fun s => !isDefinition s.kind).map fun s => (decisions k s).encard).sum := by
  induction ss with
  | nil => simp [decisionsAmong_nil]
  | cons s ss ih =>
    rw [decisionsAmong_cons, Set.encard_union_eq (Set.disjoint_left.2 fun _ =>
      notMem_nextPlaces nil_notMem_decisionsAmong),
      nextPlace_injective.encard_image, List.cons_injective.encard_image, ih]
    cases hs : isDefinition s.kind <;> simp [hs]

/-! ## What a walk counts -/

/-- Whether a walk goes on to a node. -/
def enters (t : Tree) : Bool := t.isNamed && !isDefinition t.kind

/-- Count a node below one of the kind `parent`, without what is below it. -/
def countNode (parent : Kind) (c : Counts) (l : Label) (cs : List Tree) : Counts :=
  let c := if isBranch l.kind || (l.kind == .elseClause && ownsElse parent) then
    { c with branches := c.branches + 1 } else c
  if isOperation l.kind then c.addOperation cs else c

lemma walkAll_eq (parent : Kind) (c : Counts) (ts : List Tree) :
    walkAll parent c ts = (ts.filter enters).foldl (walk parent) c := by
  induction ts generalizing c with
  | nil => rfl
  | cons t ts ih =>
    have henters : (isDefinition t.kind || t.kind == .token) = !enters t := by
      simp [enters, Tree.isNamed, Bool.or_comm, bne]
    rw [walkAll, ih, ih, henters]
    cases h : enters t <;> simp [h]

lemma walk_node (parent : Kind) (c : Counts) (l : Label) (cs : List Tree) :
    walk parent c (.node l cs) =
      (cs.filter enters).foldl (walk l.kind) (countNode parent c l cs) := by
  rw [walk, walkAll_eq]
  rfl

lemma branches_addOperation (c : Counts) (ts : List Tree) :
    (c.addOperation ts).branches = c.branches := by
  refine List.foldlRecOn (motive := fun c' : Counts => c'.branches = c.branches) ts _ rfl
    fun c' hc' t _ => ?_
  split
  · exact hc'
  · split <;> exact hc'

lemma branches_countNode (parent : Kind) (c : Counts) (l : Label) (cs : List Tree) :
    ((countNode parent c l cs).branches : ℕ∞) =
      c.branches + {path : List Nat | path = [] ∧ IsDecision parent l.kind}.encard := by
  have hdecision : (isBranch l.kind || (l.kind == .elseClause && ownsElse parent)) = true ↔
      IsDecision parent l.kind := by
    simp [IsDecision]
  have hbranches : (countNode parent c l cs).branches =
      if isBranch l.kind || (l.kind == .elseClause && ownsElse parent) then c.branches + 1
        else c.branches := by
    unfold countNode
    split <;> split <;> simp [branches_addOperation]
  rw [hbranches]
  by_cases h : IsDecision parent l.kind
  · rw [if_pos (hdecision.2 h)]
    simp [h]
  · rw [if_neg fun h' => h (hdecision.1 h')]
    simp [h]

lemma branches_foldl_walk (k : Kind) (c : Counts) (ts : List Tree)
    (h : ∀ t ∈ ts, ∀ c, ((walk k c t).branches : ℕ∞) = c.branches + (decisions k t).encard) :
    ((ts.foldl (walk k) c).branches : ℕ∞) =
      c.branches + (ts.map fun t => (decisions k t).encard).sum := by
  induction ts generalizing c with
  | nil => simp
  | cons t ts ih =>
    obtain ⟨ht, hts⟩ := List.forall_mem_cons.1 h
    rw [List.foldl_cons, ih _ hts, ht, List.map_cons, List.sum_cons, add_assoc]

lemma filter_enters (t : Tree) :
    t.children.filter enters = t.namedChildren.filter fun s => !isDefinition s.kind := by
  rw [Tree.namedChildren, List.filter_filter]
  exact List.filter_congr fun s _ => Bool.and_comm _ _

/-- A walk counts each place once. -/
lemma branches_walk (parent : Kind) (c : Counts) (t : Tree) :
    ((walk parent c t).branches : ℕ∞) = c.branches + (decisions parent t).encard := by
  induction t using Tree.induction generalizing parent c with
  | h l cs ih =>
    have hentered := filter_enters (.node l cs)
    -- the place of the node itself is the empty list, those below it are not
    have hdisjoint : Disjoint {path : List Nat | path = [] ∧ IsDecision parent l.kind}
        (decisionsAmong l.kind (Tree.node l cs).namedChildren) := by
      rw [Set.disjoint_left]
      rintro _ ⟨rfl, -⟩
      exact nil_notMem_decisionsAmong
    rw [walk_node, branches_foldl_walk _ _ _ fun t ht c => ih t (List.mem_filter.1 ht).1 _ _,
      branches_countNode, decisions_eq, Tree.kind_node, Set.encard_union_eq hdisjoint,
      encard_decisionsAmong, ← hentered, add_assoc]
    rfl

lemma finite_decisions (parent : Kind) (t : Tree) : (decisions parent t).Finite := by
  refine Set.finite_of_encard_eq_coe (k := (walk parent {} t).branches) ?_
  rw [branches_walk]
  simp

lemma ncard_decisions (parent : Kind) (t : Tree) :
    (decisions parent t).ncard = (walk parent {} t).branches := by
  rw [Set.ncard, ← ENat.toNat_natCast (walk parent {} t).branches, branches_walk]
  simp

lemma ncard_decisions_of_not_isDecision (h : ¬ IsDecision parent t.kind) :
    (decisions parent t).ncard =
      ((t.namedChildren.filter fun s => !isDefinition s.kind).map fun s =>
        (decisions t.kind s).ncard).sum := by
  have hencard (s : Tree) : ((decisions t.kind s).ncard : ℕ∞) = (decisions t.kind s).encard :=
    (finite_decisions t.kind s).cast_ncard_eq
  have hplaces : decisions parent t = decisionsAmong t.kind t.namedChildren := by
    rw [decisions_eq]
    simp [h]
  refine ENat.natCast_inj.1 ?_
  rw [(finite_decisions parent t).cast_ncard_eq, hplaces, encard_decisionsAmong, Nat.cast_list_sum,
    List.map_map]
  exact congrArg List.sum (List.map_congr_left fun s _ => (hencard s).symm)

/-! ## What stands inside definitions -/

/-- No definition stands at a node or below it. -/
def HoldsNoDefinition (t : Tree) : Prop := t.all (fun u => !isDefinition u.kind) = true

/-- No operation holds a definition. -/
def OperationsHoldNoDefinition (t : Tree) : Prop :=
  t.all (fun u => !isOperation u.kind || u.all fun v => !isDefinition v.kind) = true

/-- Two trees are the same, but for what stands inside definitions and, in consequence, for the
texts of the nodes around them and for lines. -/
inductive AgreeOutside : Tree → Tree → Prop
  | definition {t t' : Tree} : isDefinition t.kind = true → isDefinition t'.kind = true →
    AgreeOutside t t'
  | node {l l' : Label} {cs cs' : List Tree} : l.kind = l'.kind →
    (HoldsNoDefinition (.node l cs) → l.text = l'.text) → List.Forall₂ AgreeOutside cs cs' →
      AgreeOutside (.node l cs) (.node l' cs')

/-- Two nodes are of one kind, and what is below them is the same, but for what stands inside
definitions. -/
def AgreeBelow (t t' : Tree) : Prop :=
  t.kind = t'.kind ∧ List.Forall₂ AgreeOutside t.children t'.children

mutual

/-- Whether two trees are the same outside definitions. -/
def agreeOutside : Tree → Tree → Bool
  | .node l cs, .node l' cs' => isDefinition l.kind && isDefinition l'.kind ||
    l.kind == l'.kind &&
    (!(Tree.node l cs).all (fun u => !isDefinition u.kind) || l.text == l'.text) &&
      agreeOutsideAll cs cs'

def agreeOutsideAll : List Tree → List Tree → Bool
  | [], [] => true
  | t :: ts, t' :: ts' => agreeOutside t t' && agreeOutsideAll ts ts'
  | _, _ => false

end

lemma agreeOutsideAll_iff (h : ∀ t ∈ cs, ∀ t', agreeOutside t t' = true ↔ AgreeOutside t t') :
    agreeOutsideAll cs cs' = true ↔ List.Forall₂ AgreeOutside cs cs' := by
  induction cs generalizing cs' with
  | nil => cases cs' <;> simp [agreeOutsideAll]
  | cons t cs ih =>
    obtain ⟨ht, hcs⟩ := List.forall_mem_cons.1 h
    cases cs' with
    | nil => simp [agreeOutsideAll]
    | cons t' cs' => rw [agreeOutsideAll, Bool.and_eq_true, ht, ih hcs, List.forall₂_cons]

lemma agreeOutside_node : AgreeOutside (.node l cs) (.node l' cs') ↔
    isDefinition l.kind = true ∧ isDefinition l'.kind = true ∨
      l.kind = l'.kind ∧ (HoldsNoDefinition (.node l cs) → l.text = l'.text) ∧
        List.Forall₂ AgreeOutside cs cs' := by
  constructor
  · rintro (⟨h, h'⟩ | ⟨hkind, htext, hcs⟩)
    · exact .inl ⟨h, h'⟩
    · exact .inr ⟨hkind, htext, hcs⟩
  · rintro (⟨h, h'⟩ | ⟨hkind, htext, hcs⟩)
    · exact .definition h h'
    · exact .node hkind htext hcs

lemma agreeOutside_iff (t t' : Tree) : agreeOutside t t' = true ↔ AgreeOutside t t' := by
  induction t using Tree.induction generalizing t' with
  | h l cs ih =>
    cases t' with
    | node l' cs' =>
      rw [agreeOutside, agreeOutside_node, ← agreeOutsideAll_iff ih, HoldsNoDefinition]
      simp [imp_iff_not_or, and_assoc]

instance (t t' : Tree) : Decidable (AgreeBelow t t') :=
  decidable_of_iff (t.kind = t'.kind ∧ agreeOutsideAll t.children t'.children = true)
    (and_congr_right' (agreeOutsideAll_iff fun u _ => agreeOutside_iff u))

instance (t : Tree) : Decidable (OperationsHoldNoDefinition t) :=
  inferInstanceAs (Decidable (_ = true))

lemma AgreeOutside.isDefinition_eq (h : AgreeOutside t t') :
    isDefinition t.kind = isDefinition t'.kind := by
  cases h with
  | definition ht ht' => rw [ht, ht']
  | node hkind => exact congrArg isDefinition hkind

lemma AgreeOutside.agreeBelow (h : AgreeOutside t t') (ht : isDefinition t.kind = false) :
    AgreeBelow t t' := by
  cases h with
  | definition h => simp [ht] at h
  | node hkind _ hcs => exact ⟨hkind, hcs⟩

lemma AgreeOutside.kind_text_eq (h : AgreeOutside t t') (ht : HoldsNoDefinition t) :
    t.kind = t'.kind ∧ t.text = t'.text := by
  cases h with
  | definition hdefinition =>
    obtain ⟨l, cs⟩ := t
    have hroot := (Tree.all_node.1 ht).1
    simp_all
  | node hkind htext => exact ⟨hkind, htext ht⟩

/-- The parts of an operation are counted by their texts. -/
lemma addOperation_congr (c : Counts) (h : List.Forall₂ AgreeOutside cs cs')
    (hcs : ∀ t ∈ cs, HoldsNoDefinition t) : c.addOperation cs = c.addOperation cs' := by
  induction h generalizing c with
  | nil => rfl
  | @cons t t' cs cs' ht _ ih =>
    obtain ⟨ht', hcs⟩ := List.forall_mem_cons.1 hcs
    obtain ⟨hkind, htext⟩ := ht.kind_text_eq ht'
    have hcons (ts : List Tree) (t : Tree) :
        c.addOperation (t :: ts) = (c.addOperation [t]).addOperation ts := rfl
    have hone : c.addOperation [t] = c.addOperation [t'] := by
      simp [addOperation, Tree.isNamed, hkind, htext]
    rw [hcons, hone, ih _ hcs]
    rfl

lemma countNode_congr (parent : Kind) (c : Counts) (hkind : l.kind = l'.kind)
    (hparts : isOperation l.kind = true → ∀ c : Counts, c.addOperation cs = c.addOperation cs') :
    countNode parent c l cs = countNode parent c l' cs' := by
  unfold countNode
  rw [← hkind]
  cases hoperation : isOperation l.kind with
  | false => rfl
  | true => simp only [if_true, hparts hoperation]

lemma walkAll_congr (c : Counts) (h : List.Forall₂ AgreeOutside cs cs')
    (hwalk : ∀ t ∈ cs, ∀ c t', AgreeBelow t t' → walk k c t = walk k c t') :
    walkAll k c cs = walkAll k c cs' := by
  induction h generalizing c with
  | nil => rfl
  | @cons t t' cs cs' ht _ ih =>
    obtain ⟨ht', hcs⟩ := List.forall_mem_cons.1 hwalk
    rw [walkAll, walkAll, ← ht.isDefinition_eq]
    cases hdefinition : isDefinition t.kind with
    | true => simpa using ih c hcs
    | false =>
      -- outside definitions the relation keeps the kind, so both walks enter or both pass
      have hbelow := ht.agreeBelow hdefinition
      rw [← hbelow.1, ht' c t' hbelow, ih c hcs, ih (walk k c t') hcs]

/-- A walk does not look into definitions. -/
lemma walk_congr (parent : Kind) (c : Counts) (h : AgreeBelow t t')
    (ht : OperationsHoldNoDefinition t) :
    walk parent c t = walk parent c t' := by
  induction t using Tree.induction generalizing t' parent c with
  | h l cs ih =>
    obtain ⟨l', cs'⟩ := t'
    obtain ⟨hkind, hcs⟩ := h
    obtain ⟨hroot, hchildren⟩ := Tree.all_node.1 ht
    -- the parts of an operation are told apart by their texts, which agree where no definition is
    have hcount : countNode parent c l cs = countNode parent c l' cs' := by
      refine countNode_congr parent c hkind fun hoperation c => addOperation_congr c hcs ?_
      rw [Tree.kind_node, hoperation, Bool.not_true, Bool.false_or] at hroot
      exact (Tree.all_node.1 hroot).2
    rw [walk_node, walk_node, ← walkAll_eq, ← walkAll_eq, hcount,
      show l'.kind = l.kind from hkind.symm]
    exact walkAll_congr _ hcs fun s hs c s' hs' => ih s hs l.kind c hs' (hchildren s hs)

/-! ## Functions -/

/-- What is counted in the body of a function. -/
def bodyCounts (definition : Tree) : Counts :=
  match definition.child? .body with
  | some body => walk definition.kind {} body
  | none => {}

variable {definition body : Tree}

lemma bodyCounts_of_body (h : definition.child? .body = some body) :
    bodyCounts definition = walk definition.kind {} body := by
  rw [bodyCounts, h]

lemma complexity_functionOf (definition : Tree) :
    (functionOf definition).complexity = UInt32.ofNat (1 + (bodyCounts definition).branches) := rfl

lemma halstead_functionOf (definition : Tree) :
    (functionOf definition).halstead = (bodyCounts definition).volume := rfl

/-- **Complexity of a function.** It is one more than the number of decision points that are
reached from the body without entering a definition, and those of a block are those of its
statements together. Where no operation holds a definition, other contents of the definitions
inside the body, decorated or not, make no difference to it, nor to the operators and operands that
are counted. -/
theorem complexity_eq_ncard_decisions (definition body : Tree)
    (hbody : definition.child? .body = some body) :
    (decisions definition.kind body).Finite ∧
    (functionOf definition).complexity =
      UInt32.ofNat (1 + (decisions definition.kind body).ncard) ∧
    (body.kind = .block → (decisions definition.kind body).ncard =
      ((body.namedChildren.filter fun s => !isDefinition s.kind).map fun s =>
        (decisions .block s).ncard).sum) ∧
    (OperationsHoldNoDefinition body → ∀ definition' body',
      definition'.kind = definition.kind → definition'.child? .body = some body' →
        AgreeBelow body body' →
          bodyCounts definition' = bodyCounts definition ∧
          (functionOf definition').complexity = (functionOf definition).complexity ∧
          (functionOf definition').halstead = (functionOf definition).halstead) := by
  refine ⟨finite_decisions _ _, ?_, fun hblock => ?_, fun hoperations => ?_⟩
  · rw [complexity_functionOf, bodyCounts_of_body hbody, ncard_decisions]
  · have hdecision : ¬ IsDecision definition.kind body.kind := by
      simp [IsDecision, hblock, isBranch]
    rw [ncard_decisions_of_not_isDecision hdecision, hblock]
  · intro definition' body' hkind hbody' hagree
    have hcounts : bodyCounts definition' = bodyCounts definition := by
      rw [bodyCounts_of_body hbody, bodyCounts_of_body hbody', hkind,
        walk_congr definition.kind {} hagree hoperations]
    rw [complexity_functionOf, complexity_functionOf, halstead_functionOf, halstead_functionOf,
      hcounts]
    exact ⟨rfl, rfl, rfl⟩

/-- A function with three decision points, around a decorated function of one line. -/
def waitFunction (line : String) : String :=
  "def wait(x):\n  while x and x.open:\n    @log\n    def ask(y):\n      " ++ line ++
    "\n  else:\n    pass\n"

/-- The definition at the front of a text, with its body. -/
def definitionIn (text : String) : Option (Tree × Tree) := do
  let root ← parse text
  let definition ← root.namedChildren.head?
  let body ← definition.child? .body
  pure (definition, body)

lemma child?_body_of_definitionIn {text : String}
    (h : definitionIn text = some (definition, body)) :
    definition.child? .body = some body := by
  obtain ⟨root, -, h⟩ := Option.bind_eq_some_iff.1 h
  obtain ⟨d, -, h⟩ := Option.bind_eq_some_iff.1 h
  obtain ⟨b, hb, h⟩ := Option.bind_eq_some_iff.1 h
  obtain ⟨rfl, rfl⟩ := Prod.mk.inj (Option.some.inj h)
  exact hb

theorem complexity_eq_ncard_decisions_waitFunction : ∃ definition body definition' body',
    definition.child? .body = some body ∧ definition'.child? .body = some body' ∧
      body.text ≠ body'.text ∧ AgreeBelow body body' ∧
      (decisions definition.kind body).ncard = 3 ∧ (functionOf definition).complexity = 4 ∧
      bodyCounts definition' = bodyCounts definition ∧ (functionOf definition').complexity = 4 := by
  have hread : (definitionIn (waitFunction "return y if y else 0")).any (fun d =>
      (definitionIn (waitFunction "for z in y: pass")).any fun d' =>
        decide (d'.1.kind = d.1.kind ∧ d.2.text ≠ d'.2.text ∧ OperationsHoldNoDefinition d.2 ∧
          AgreeBelow d.2 d'.2 ∧ (walk d.1.kind {} d.2).branches = 3)) = true := by
    decide +kernel
  obtain ⟨⟨definition, body⟩, hd, hread⟩ := (Option.any_eq_true _ _).1 hread
  obtain ⟨⟨definition', body'⟩, hd', hread⟩ := (Option.any_eq_true _ _).1 hread
  obtain ⟨hkind, htext, hoperations, hagree, hbranches⟩ := of_decide_eq_true hread
  have hbody := child?_body_of_definitionIn hd
  have hbody' := child?_body_of_definitionIn hd'
  obtain ⟨-, hcomplexity, -, hreplaced⟩ := complexity_eq_ncard_decisions definition body hbody
  obtain ⟨hcounts, hcomplexity', -⟩ :=
    hreplaced hoperations definition' body' hkind hbody' hagree
  have hncard : (decisions definition.kind body).ncard = 3 := (ncard_decisions _ _).trans hbranches
  have hfour : (functionOf definition).complexity = 4 := by
    rw [hcomplexity, hncard]
    rfl
  exact ⟨definition, body, definition', body', hbody, hbody', htext, hagree, hncard, hfour, hcounts,
    hcomplexity'.trans hfour⟩

end AddonAtlas.Source
