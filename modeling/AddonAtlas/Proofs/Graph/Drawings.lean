import AddonAtlas.Proofs.Graph.Notation

/-!
Drawings read back.

A reader of the DOT notation finds in a drawing a statement for each node and each edge of the view,
in their order and nothing between them, and reads off them what is shown. Names are free to hold
whatever they like: a quoted name is one token, so neither its quotes nor its semicolons are seen.
-/

namespace AddonAtlas.GraphView

open Dot

variable {n : GraphNode} {c : String}

/-! ## What is drawn -/

/-- What a drawing says of a node beside its name. -/
def nodeAttributes (n : GraphNode) : List Attribute :=
  ((colorOf n).map fun c => ("color", Token.word c)).toList ++
    (match n.kind with
    | some k => [("shape", .word k.shape), ("label", .quoted (label n.name))]
    | none => []) ++
    (if n.autoIncluded then [("style", .word "dashed")] else [])

def edgeAttributes (e : GraphEdge) : List Attribute :=
  if e.inCycle then [("color", .word "red")] else []

def nodeStatement (n : GraphNode) : Statement := .node n.name (nodeAttributes n)

def edgeStatement (e : GraphEdge) : Statement := .edge e.source e.target (edgeAttributes e)

/-- The graph that a drawing describes. -/
def digraph (v : GraphView) (name : String) : Digraph where
  name := identifier name
  statements := [.setting "rankdir" (.word "LR"), .defaults "node" [("shape", .word "box")]] ++
    v.nodes.map nodeStatement ++ v.edges.map edgeStatement

lemma isWord_of_colorOf (h : colorOf n = some c) : IsWord c := by
  unfold colorOf at h
  split at h
  case h_5 =>
    split_ifs at h
    obtain rfl := Option.some.inj h
    decide
  all_goals cases h
  all_goals decide

lemma isWord_shape (k : NodeKind) : IsWord k.shape := by
  cases k <;> decide

lemma plain_nodeAttributes (n : GraphNode) : ∀ x ∈ nodeAttributes n, x.Plain := by
  intro x hx
  simp only [nodeAttributes, List.mem_append, Option.mem_toList, Option.map_eq_some_iff] at hx
  rcases hx with (⟨c, hc, rfl⟩ | hx) | hx
  · exact .word (by decide) (isWord_of_colorOf hc)
  · cases hk : n.kind with
    | none => simp [hk] at hx
    | some k =>
      simp only [hk, List.mem_cons, List.not_mem_nil, or_false] at hx
      rcases hx with rfl | rfl
      · exact .word (by decide) (isWord_shape k)
      · exact .quoted (by decide)
  · split_ifs at hx
    · rw [List.mem_singleton.1 hx]
      exact .word (by decide) (by decide)
    · exact absurd hx List.not_mem_nil

lemma plain_edgeAttributes (e : GraphEdge) : ∀ x ∈ edgeAttributes e, x.Plain := by
  unfold edgeAttributes
  split_ifs
  · exact List.forall_mem_singleton.2 (.word (by decide) (by decide))
  · exact fun _ h => absurd h List.not_mem_nil

lemma plain_digraph (v : GraphView) (name : String) :
    ∀ s ∈ (v.digraph name).statements, s.Plain := by
  intro s hs
  simp only [digraph, List.mem_append, List.mem_cons, List.not_mem_nil, or_false,
    List.mem_map] at hs
  rcases hs with ((rfl | rfl) | ⟨n, -, rfl⟩) | ⟨e, -, rfl⟩
  · exact rfl
  · exact ⟨List.cons_ne_nil _ _, List.forall_mem_singleton.2 (.word (by decide) (by decide))⟩
  · exact plain_nodeAttributes n
  · exact plain_edgeAttributes e

/-! ## How it is written -/

lemma attributesOf_eq (n : GraphNode) : attributesOf n = (nodeAttributes n).map Attribute.text := by
  simp only [attributesOf, nodeAttributes, List.map_append, Option.toList_map, List.map_map]
  congr 2
  · cases n.kind <;> rfl
  · cases n.autoIncluded <;> rfl

/-- What stands behind a node. -/
lemma reads_bracketed {l : List Attribute} (h : ∀ x ∈ l, x.Plain) :
    Reads (if (l.map Attribute.text).isEmpty then ";\n"
      else " [" ++ ", ".intercalate (l.map Attribute.text) ++ "];\n")
      (Statement.tokens.bracketed l ++ [.sign ';']) := by
  by_cases hl : l = []
  · subst hl
    rfl
  · have hopen : Reads " [" [.sign '['] := rfl
    have hclose : Reads ";\n" [.sign ';'] := rfl
    have htext : " [" ++ ", ".intercalate (l.map Attribute.text) ++ "];\n" =
        " [" ++ (", ".intercalate (l.map Attribute.text) ++ "]") ++ ";\n" := by
      rw [String.append_assoc, String.append_assoc, String.append_assoc]
      rfl
    rw [if_neg (by simpa using hl), htext, Statement.tokens.bracketed, if_neg hl]
    exact (hopen.append (reads_attributes hl h)).append hclose

lemma reads_nodeLine (n : GraphNode) :
    Reads (nodeLine n) ((nodeStatement n).tokens ++ [.sign ';']) := by
  have hindent : Reads "  " [] := rfl
  rw [nodeLine, attributesOf_eq]
  exact (hindent.append (reads_quotedName n.name)).append (reads_bracketed (plain_nodeAttributes n))

lemma reads_edgeLine (e : GraphEdge) :
    Reads (edgeLine e) ((edgeStatement e).tokens ++ [.sign ';']) := by
  have hindent : Reads "  " [] := rfl
  have harrow : Reads " -> " [.arrow] := rfl
  have hends := ((hindent.append (reads_quotedName e.source)).append harrow).append
    (reads_quotedName e.target)
  have hrest : Reads (if e.inCycle then " [color=red];\n" else ";\n")
      (Statement.tokens.bracketed (edgeAttributes e) ++ [.sign ';']) := by
    unfold edgeAttributes
    cases e.inCycle <;> rfl
  exact hends.append hrest

lemma all_isWordChar_identifier (name : String) :
    (identifier name).toList.all isWordChar = true := by
  rw [identifier, String.toList_ofList, List.all_map, List.all_eq_true]
  intro c _
  rw [Function.comp_apply]
  by_cases hc : (c.isAlphanum || c == '_') = true
  · rw [if_pos hc]
    exact hc
  · rw [if_neg hc]
    rfl

/-- The first line, which may lack a name, and the two statements behind it. -/
lemma reads_heading (name : String) :
    Reads ("digraph " ++ identifier name ++ " \x7b\n  rankdir=LR;\n  node [shape=box];\n\n")
      (.word "digraph" :: nameTokens (identifier name) ++
        [.sign '\x7b', .word "rankdir", .sign '=', .word "LR", .sign ';', .word "node", .sign '[',
          .word "shape", .sign '=', .word "box", .sign ']', .sign ';']) := by
  have hkeyword : Reads "digraph " [.word "digraph"] := rfl
  have hrest : Reads " \x7b\n  rankdir=LR;\n  node [shape=box];\n\n" [.sign '\x7b', .word "rankdir",
      .sign '=', .word "LR", .sign ';', .word "node", .sign '[', .word "shape", .sign '=',
      .word "box", .sign ']', .sign ';'] := rfl
  rw [String.append_assoc]
  by_cases hname : identifier name = ""
  · rw [nameTokens, if_pos hname, hname, String.empty_append]
    exact hkeyword.append hrest
  · rw [nameTokens, if_neg hname]
    exact hkeyword.append
      (hrest.word ⟨hname, all_isWordChar_identifier name⟩ ⟨' ', _, rfl, rfl⟩)

lemma reads_drawing (v : GraphView) (name : String) :
    Reads (v.drawing name) (v.digraph name).tokens := by
  have hnodes : Reads (String.join (v.nodes.map nodeLine))
      ((v.nodes.map nodeStatement).flatMap fun s => s.tokens ++ [.sign ';']) := by
    rw [List.flatMap_map]
    exact reads_join fun n _ => reads_nodeLine n
  have hedges : Reads (String.join (v.edges.map edgeLine))
      ((v.edges.map edgeStatement).flatMap fun s => s.tokens ++ [.sign ';']) := by
    rw [List.flatMap_map]
    exact reads_join fun e _ => reads_edgeLine e
  have hblank : Reads (if v.edges.isEmpty then "" else "\n") [] := by
    split_ifs <;> rfl
  have hclose : Reads "\x7d\n" [.sign '\x7d'] := rfl
  have htokens := ((((reads_heading name).append hnodes).append hblank).append hedges).append hclose
  have hdigraph : (v.digraph name).tokens = .word "digraph" :: nameTokens (identifier name) ++
      [.sign '\x7b', .word "rankdir", .sign '=', .word "LR", .sign ';', .word "node", .sign '[',
        .word "shape", .sign '=', .word "box", .sign ']', .sign ';'] ++
      (v.nodes.map nodeStatement).flatMap (fun s => s.tokens ++ [.sign ';']) ++ [] ++
      (v.edges.map edgeStatement).flatMap (fun s => s.tokens ++ [.sign ';']) ++ [.sign '\x7d'] := by
    simp [Digraph.tokens, digraph, Statement.tokens, attributeTokens]
  rw [hdigraph]
  exact htokens

/-! ## What is read off -/

/-- The kind of node that has a shape. -/
def kindOf? : Token → Option NodeKind
  | .word "doubleoctagon" => some .package
  | .word "box" => some .model
  | .word "octagon" => some .field
  | .word "oval" => some .view
  | _ => none

/-- What a statement says of a node: its name, whether it is dashed, and the kind that its shape is
for. -/
def shownNode? : Statement → Option (String × Bool × Option NodeKind)
  | .node n as => some (n, as.contains ("style", .word "dashed"), (as.lookup "shape").bind kindOf?)
  | _ => none

/-- What a statement says of an edge: its two ends, and whether it is red. -/
def shownEdge? : Statement → Option (String × String × Bool)
  | .edge a b as => some (a, b, as.contains ("color", .word "red"))
  | _ => none

lemma kindOf?_shape (k : NodeKind) : kindOf? (.word k.shape) = some k := by
  cases k <;> rfl

lemma shownNode?_nodeStatement (n : GraphNode) :
    shownNode? (nodeStatement n) = some (n.name, n.autoIncluded, n.kind) := by
  have hdashed : (nodeAttributes n).contains ("style", .word "dashed") = n.autoIncluded := by
    unfold nodeAttributes
    cases colorOf n <;> cases n.kind <;> cases n.autoIncluded <;> simp
  have hkind : ((nodeAttributes n).lookup "shape").bind kindOf? = n.kind := by
    unfold nodeAttributes
    cases n.kind with
    | none => cases colorOf n <;> cases n.autoIncluded <;> rfl
    | some k => cases colorOf n <;> cases n.autoIncluded <;> exact kindOf?_shape k
  rw [nodeStatement, shownNode?, hdashed, hkind]

lemma shownEdge?_edgeStatement (e : GraphEdge) :
    shownEdge? (edgeStatement e) = some (e.source, e.target, e.inCycle) := by
  rw [edgeStatement, shownEdge?, edgeAttributes]
  cases e.inCycle <;> rfl

/-- **A drawing can be read back.** Behind the two statements that stand in every drawing it has
one statement for each node and one for each edge, in their order. The first ones tell the names of
the nodes, which of them were included on their own and of which kind they are; the others tell the
ends of the edges and which of them are in a cycle. No name ends early or is read as more than
itself: wherever a quoted name stands outside of words and quotes it is read as one token, and the
reading goes on outside. -/
theorem read?_drawing (v : GraphView) (name : String) :
    (∃ nodes edges : List Statement,
      read? (v.drawing name) = some ⟨identifier name,
        [.setting "rankdir" (.word "LR"), .defaults "node" [("shape", .word "box")]] ++
          nodes ++ edges⟩ ∧
      nodes.map shownNode? = v.nodes.map (fun n => some (n.name, n.autoIncluded, n.kind)) ∧
      edges.map shownEdge? = v.edges.map (fun e => some (e.source, e.target, e.inCycle))) ∧
    (∀ s old rest, run ⟨.outside, old⟩ ((quotedName s).toList ++ rest) =
      run ⟨.outside, old ++ [.quoted s]⟩ rest) ∧
    ∀ s, (quotedName s).toList =
      '"' :: (replaced '"' ['\\', '"'] (replaced '\\' ['\\', '\\'] s.toList) ++ ['"']) := by
  refine ⟨⟨v.nodes.map nodeStatement, v.edges.map edgeStatement, ?_, ?_, ?_⟩, fun s old rest => ?_,
    fun s => ?_⟩
  · rw [read?, tokens?_of_reads (reads_drawing v name), Option.bind_some,
      digraph?_tokens (plain_digraph v name), digraph]
  · rw [List.map_map]
    exact List.map_congr_left fun n _ => shownNode?_nodeStatement n
  · rw [List.map_map]
    exact List.map_congr_left fun e _ => shownEdge?_edgeStatement e
  · rw [run_append, ← behind_start old, run_behind, reads_quotedName s]
    rfl
  · rw [toList_quotedName, flatMap_escape_eq_replaced]

/-- A name with a quote, a backslash and an arrow in it, and a quote that is never closed. -/
example : tokens? (quotedName "a\" -> b\\" ++ ";") = some [.quoted "a\" -> b\\", .sign ';'] ∧
    tokens? "\"a\\\"" = none := ⟨rfl, rfl⟩

end AddonAtlas.GraphView
