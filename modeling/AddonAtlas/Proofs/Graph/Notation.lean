import AddonAtlas.Graph.Drawing
import Mathlib.Data.List.Basic

/-!
The DOT notation as it is read: a text makes tokens, and tokens make statements.

Tokens are found in one pass. Between quotes a backslash stands for the character behind it,
whatever this is, and the first quote that is not behind one ends the identifier. What has been
found stays as it is, so a text that is read from outside of words and quotes to there again can
stand anywhere.
-/

namespace AddonAtlas.Dot

/-! ## Tokens -/

inductive Token
  /-- A run of letters, digits and underscores. -/
  | word (s : String)
  /-- What stands between quotes, without the backslashes that escape something. -/
  | quoted (s : String)
  | arrow
  | sign (c : Char)
  deriving DecidableEq, Repr

/-- Words and quoted texts name things and values. -/
def Token.isIdentifier : Token → Bool
  | .word _ => true
  | .quoted _ => true
  | _ => false

def isWordChar (c : Char) : Bool := c.isAlphanum || c == '_'

/-- Where a scan stands, with the part of a token that it has read. -/
inductive Place
  | outside
  | word (w : List Char)
  | hyphen
  | quoted (w : List Char)
  /-- Between quotes, behind a backslash. -/
  | escaped (w : List Char)

structure Scan where
  place : Place
  tokens : List Token

def start : Scan := ⟨.outside, []⟩

/-- A character that stands outside of words and quotes. -/
def enter (ts : List Token) (c : Char) : Scan :=
  if isWordChar c then ⟨.word [c], ts⟩
  else if c = '"' then ⟨.quoted [], ts⟩
  else if c = '-' then ⟨.hyphen, ts⟩
  else if c.isWhitespace then ⟨.outside, ts⟩
  else ⟨.outside, ts ++ [.sign c]⟩

def step (s : Scan) (c : Char) : Scan :=
  match s.place with
  | .outside => enter s.tokens c
  | .word w =>
    if isWordChar c then ⟨.word (w ++ [c]), s.tokens⟩
    else enter (s.tokens ++ [.word (.ofList w)]) c
  | .hyphen =>
    if c = '>' then ⟨.outside, s.tokens ++ [.arrow]⟩ else enter (s.tokens ++ [.sign '-']) c
  | .quoted w =>
    if c = '"' then ⟨.outside, s.tokens ++ [.quoted (.ofList w)]⟩
    else if c = '\\' then ⟨.escaped w, s.tokens⟩
    else ⟨.quoted (w ++ [c]), s.tokens⟩
  | .escaped w => ⟨.quoted (w ++ [c]), s.tokens⟩

def run (s : Scan) (l : List Char) : Scan := l.foldl step s

/-- The tokens of a text. A text that ends between quotes has none. -/
def tokens? (text : String) : Option (List Token) :=
  let s := run start text.toList
  match s.place with
  | .outside => some s.tokens
  | .word w => some (s.tokens ++ [.word (.ofList w)])
  | .hyphen => some (s.tokens ++ [.sign '-'])
  | _ => none

/-! ## Statements -/

/-- A key and its value, a word or a quoted text. -/
abbrev Attribute := String × Token

inductive Statement
  /-- A value for the whole graph. -/
  | setting (key : String) (value : Token)
  /-- Attributes of all nodes or edges that follow. -/
  | defaults (kind : String) (attributes : List Attribute)
  | node (name : String) (attributes : List Attribute)
  | edge (source target : String) (attributes : List Attribute)
  deriving DecidableEq, Repr

/-- The attributes of a list, from behind its opening bracket to its closing one. -/
def attributes? : List Token → Option (List Attribute)
  | [.word k, .sign '=', v, .sign ']'] => if v.isIdentifier then some [(k, v)] else none
  | .word k :: .sign '=' :: v :: .sign ',' :: ts =>
    if v.isIdentifier then (attributes? ts).map ((k, v) :: ·) else none
  | _ => none

/-- The statement that some tokens make. Names of nodes are quoted, words are keys and kinds. -/
def statement? : List Token → Option Statement
  | [.word k, .sign '=', v] => if v.isIdentifier then some (.setting k v) else none
  | .word k :: .sign '[' :: ts => (attributes? ts).map (.defaults k)
  | [.quoted n] => some (.node n [])
  | .quoted n :: .sign '[' :: ts => (attributes? ts).map (.node n)
  | [.quoted a, .arrow, .quoted b] => some (.edge a b [])
  | .quoted a :: .arrow :: .quoted b :: .sign '[' :: ts => (attributes? ts).map (.edge a b)
  | _ => none

/-- Statements that end with a semicolon each. -/
def statements? (ts : List Token) : Option (List Statement) :=
  let pieces := ts.splitOn (.sign ';')
  if pieces.getLast? = some [] then pieces.dropLast.mapM statement? else none

structure Digraph where
  /-- Empty if it has none. -/
  name : String
  statements : List Statement
  deriving DecidableEq, Repr

/-- The statements from behind an opening brace to a closing one at the end. -/
def body? (ts : List Token) : Option (List Statement) :=
  if ts.getLast? = some (.sign '\x7d') then statements? ts.dropLast else none

def digraph? : List Token → Option Digraph
  | .word "digraph" :: .sign '\x7b' :: ts => (body? ts).map (.mk "")
  | .word "digraph" :: .word n :: .sign '\x7b' :: ts => (body? ts).map (.mk n)
  | _ => none

/-- The graph that a text describes. -/
def read? (text : String) : Option Digraph := (tokens? text).bind digraph?

/-! ## Scans -/

/-- A scan with further tokens in front. -/
def Scan.behind (s : Scan) (ts : List Token) : Scan := ⟨s.place, ts ++ s.tokens⟩

lemma behind_start (ts : List Token) : start.behind ts = ⟨.outside, ts⟩ := by
  rw [start, Scan.behind, List.append_nil]

lemma enter_append (old ts : List Token) (c : Char) :
    enter (old ++ ts) c = (enter ts c).behind old := by
  unfold enter
  split_ifs <;> simp [Scan.behind]

lemma step_behind (s : Scan) (old : List Token) (c : Char) :
    step (s.behind old) c = (step s c).behind old := by
  obtain ⟨place, ts⟩ := s
  cases place with
  | outside => exact enter_append old ts c
  | word w =>
    simp only [Scan.behind, step, List.append_assoc, enter_append]
    split <;> rfl
  | hyphen =>
    simp only [Scan.behind, step, List.append_assoc, enter_append]
    split <;> rfl
  | quoted w =>
    simp only [Scan.behind, step, List.append_assoc]
    split_ifs <;> rfl
  | escaped w => rfl

@[simp] lemma run_nil (s : Scan) : run s [] = s := rfl

@[simp] lemma run_cons (s : Scan) (c : Char) (l : List Char) :
    run s (c :: l) = run (step s c) l := rfl

lemma run_append (s : Scan) (l l' : List Char) : run s (l ++ l') = run (run s l) l' :=
  List.foldl_append

/-- **What has been found stays, and does not matter for what is found later.** -/
lemma run_behind (s : Scan) (old : List Token) (l : List Char) :
    run (s.behind old) l = (run s l).behind old := by
  induction l generalizing s with
  | nil => rfl
  | cons c l ih =>
    rw [run_cons, run_cons, step_behind, ih]

/-- A text is read from outside of words and quotes to there again. -/
def Reads (text : String) (ts : List Token) : Prop := run start text.toList = ⟨.outside, ts⟩

variable {a b w : String} {ts us : List Token}

lemma tokens?_of_reads (h : Reads a ts) : tokens? a = some ts := by
  rw [tokens?, h]

lemma Reads.append (h : Reads a ts) (h' : Reads b us) : Reads (a ++ b) (ts ++ us) := by
  rw [Reads, String.toList_append, run_append, h, ← behind_start, run_behind, h']
  rfl

lemma reads_join {α : Type*} {f : α → String} {g : α → List Token} {l : List α}
    (h : ∀ x ∈ l, Reads (f x) (g x)) : Reads (String.join (l.map f)) (l.flatMap g) := by
  induction l with
  | nil => rfl
  | cons x l ih =>
    rw [List.map_cons, String.join_cons, List.flatMap_cons]
    exact (h x List.mem_cons_self).append (ih fun y hy => h y (List.mem_cons_of_mem x hy))

/-! ## Words and quotes -/

def IsWord (w : String) : Prop := w ≠ "" ∧ w.toList.all isWordChar = true

instance (w : String) : Decidable (IsWord w) := inferInstanceAs (Decidable (_ ∧ _))

/-- A text that ends the word before it. -/
def Breaks (a : String) : Prop := ∃ c l, a.toList = c :: l ∧ isWordChar c = false

lemma Breaks.append (h : Breaks a) (b : String) : Breaks (a ++ b) := by
  obtain ⟨c, l, ha, hc⟩ := h
  exact ⟨c, l ++ b.toList, by rw [String.toList_append, ha, List.cons_append], hc⟩

lemma run_word (u v : List Char) (h : v.all isWordChar = true) :
    run ⟨.word u, []⟩ v = ⟨.word (u ++ v), []⟩ := by
  induction v generalizing u with
  | nil => rw [run_nil, List.append_nil]
  | cons c v ih =>
    rw [List.all_cons, Bool.and_eq_true] at h
    have hstep : step ⟨.word u, []⟩ c = ⟨.word (u ++ [c]), []⟩ := if_pos h.1
    rw [run_cons, hstep, ih _ h.2, List.append_assoc, List.singleton_append]

lemma Reads.word (hw : IsWord w) (h : Reads a ts) (ha : Breaks a) :
    Reads (w ++ a) (.word w :: ts) := by
  have hrun : run start w.toList = ⟨.word w.toList, []⟩ := by
    cases hl : w.toList with
    | nil => exact absurd (String.toList_eq_nil_iff.1 hl) hw.1
    | cons c v =>
      have hall := hl ▸ hw.2
      rw [List.all_cons, Bool.and_eq_true] at hall
      have hstep : step start c = ⟨.word [c], []⟩ := if_pos hall.1
      rw [run_cons, hstep, run_word _ _ hall.2, List.singleton_append]
  obtain ⟨c, l, hcl, hc⟩ := ha
  -- the word ends where a character comes that a scan would otherwise meet outside
  have hstep : step ⟨.word w.toList, []⟩ c = (step start c).behind [.word w] := by
    have henter : step ⟨.word w.toList, []⟩ c = enter [.word (.ofList w.toList)] c :=
      if_neg (by rw [hc]; exact Bool.false_ne_true)
    rw [henter, String.ofList_toList]
    exact enter_append [.word w] [] c
  rw [Reads, hcl, run_cons] at h
  rw [Reads, String.toList_append, run_append, hrun, hcl, run_cons, hstep, run_behind, h]
  rfl

/-- How a character is written between quotes. -/
def escape (c : Char) : List Char := if c = '\\' ∨ c = '"' then ['\\', c] else [c]

lemma toList_quotedName (s : String) :
    (GraphView.quotedName s).toList = '"' :: (s.toList.flatMap escape ++ ['"']) := by
  simp only [GraphView.quotedName, String.toList_ofList, Bool.or_eq_true, decide_eq_true_eq,
    List.cons_append]
  rfl

/-- A list with other elements in place of each occurrence of one. -/
def replaced (c : Char) (w l : List Char) : List Char := l.flatMap fun d => if d = c then w else [d]

/-- Quotes come after backslashes: the backslashes that they bring are not doubled. -/
lemma flatMap_escape_eq_replaced (l : List Char) :
    l.flatMap escape = replaced '"' ['\\', '"'] (replaced '\\' ['\\', '\\'] l) := by
  rw [replaced, replaced, List.flatMap_assoc]
  refine List.flatMap_congr fun c _ => ?_
  by_cases hback : c = '\\'
  · simp [escape, hback]
  · by_cases hquote : c = '"'
    · simp [escape, hquote]
    · simp [escape, hback, hquote]

lemma run_escape (u : List Char) (c : Char) :
    run ⟨.quoted u, []⟩ (escape c) = ⟨.quoted (u ++ [c]), []⟩ := by
  unfold escape
  split_ifs with hc
  · rfl
  · obtain ⟨hback, hquote⟩ := not_or.1 hc
    exact (if_neg hquote).trans (if_neg hback)

lemma run_flatMap_escape (u l : List Char) :
    run ⟨.quoted u, []⟩ (l.flatMap escape) = ⟨.quoted (u ++ l), []⟩ := by
  induction l generalizing u with
  | nil => rw [List.flatMap_nil, run_nil, List.append_nil]
  | cons c l ih =>
    rw [List.flatMap_cons, run_append, run_escape, ih, List.append_assoc, List.singleton_append]

/-- **A quoted name is one token,** whatever stands in it. -/
lemma reads_quotedName (s : String) : Reads (GraphView.quotedName s) [.quoted s] := by
  have hopen : step start '"' = ⟨.quoted [], []⟩ := rfl
  have hclose : step ⟨.quoted s.toList, []⟩ '"' = ⟨.outside, [.quoted (.ofList s.toList)]⟩ := rfl
  rw [Reads, toList_quotedName, run_cons, hopen, run_append, run_flatMap_escape, List.nil_append,
    run_cons, hclose, run_nil, String.ofList_toList]

/-! ## Attributes -/

/-- How a word or a quoted text is written. -/
def Token.text : Token → String
  | .word w => w
  | .quoted s => GraphView.quotedName s
  | .arrow => "->"
  | .sign c => c.toString

def Attribute.text (x : Attribute) : String := x.1 ++ "=" ++ x.2.text

/-- An attribute that can be written: its words are words. -/
inductive Attribute.Plain : Attribute → Prop
  | word {k w : String} (hk : IsWord k) (hw : IsWord w) : Plain (k, .word w)
  | quoted {k s : String} (hk : IsWord k) : Plain (k, .quoted s)

/-- The tokens of an attribute list behind its opening bracket. -/
def attributeTokens : List Attribute → List Token
  | [] => [.sign ']']
  | [x] => [.word x.1, .sign '=', x.2, .sign ']']
  | x :: l => .word x.1 :: .sign '=' :: x.2 :: .sign ',' :: attributeTokens l

variable {x : Attribute} {l : List Attribute}

lemma Attribute.Plain.isIdentifier (h : x.Plain) : x.2.isIdentifier = true := by
  cases h <;> rfl

lemma Attribute.Plain.reads (h : x.Plain) (ha : Reads a ts) (hbreak : Breaks a) :
    Reads (x.text ++ a) (.word x.1 :: .sign '=' :: x.2 :: ts) := by
  have hequals : Reads "=" [.sign '='] := rfl
  have hvalue : Reads (x.2.text ++ a) (x.2 :: ts) := by
    cases h with
    | word hk hw => exact ha.word hw hbreak
    | quoted hk => exact (reads_quotedName _).append ha
  have hkey : IsWord x.1 := by cases h <;> assumption
  have hrest : Breaks ("=" ++ (x.2.text ++ a)) := Breaks.append ⟨'=', [], rfl, rfl⟩ _
  rw [Attribute.text, String.append_assoc, String.append_assoc]
  exact (hequals.append hvalue).word hkey hrest

lemma reads_attributes (hl : l ≠ []) (h : ∀ x ∈ l, x.Plain) :
    Reads (", ".intercalate (l.map Attribute.text) ++ "]") (attributeTokens l) := by
  induction l with
  | nil => exact absurd rfl hl
  | cons x l ih =>
    have hx := h x List.mem_cons_self
    cases l with
    | nil =>
      rw [List.map_singleton, String.intercalate_singleton]
      exact hx.reads rfl ⟨']', [], rfl, rfl⟩
    | cons y l =>
      have hrest := ih (List.cons_ne_nil y l) fun z hz => h z (List.mem_cons_of_mem x hz)
      have hcomma : Reads ", " [.sign ','] := rfl
      rw [List.map_cons, List.map_cons, String.intercalate_cons_cons, String.append_assoc,
        String.append_assoc]
      exact hx.reads (hcomma.append hrest) (Breaks.append ⟨',', [' '], rfl, rfl⟩ _)

lemma attributes?_attributeTokens (hl : l ≠ []) (h : ∀ x ∈ l, x.Plain) :
    attributes? (attributeTokens l) = some l := by
  induction l with
  | nil => exact absurd rfl hl
  | cons x l ih =>
    have hx := (h x List.mem_cons_self).isIdentifier
    cases l with
    | nil => exact if_pos hx
    | cons y l =>
      have hrest := ih (List.cons_ne_nil y l) fun z hz => h z (List.mem_cons_of_mem x hz)
      rw [attributeTokens, attributes?, if_pos hx, hrest]
      · rfl
      · simp

/-! ## Statements and graphs -/

/-- The tokens of a statement without its semicolon. -/
def Statement.tokens : Statement → List Token
  | .setting k v => [.word k, .sign '=', v]
  | .defaults k as => .word k :: .sign '[' :: attributeTokens as
  | .node n as => .quoted n :: bracketed as
  | .edge a b as => .quoted a :: .arrow :: .quoted b :: bracketed as
where
  /-- An attribute list is left out if it is empty. -/
  bracketed (as : List Attribute) : List Token :=
    if as = [] then [] else .sign '[' :: attributeTokens as

/-- A statement that can be written. -/
def Statement.Plain : Statement → Prop
  | .setting _ v => v.isIdentifier = true
  | .defaults _ as => as ≠ [] ∧ ∀ x ∈ as, x.Plain
  | .node _ as => ∀ x ∈ as, x.Plain
  | .edge _ _ as => ∀ x ∈ as, x.Plain

/-- The token of a name, if there is one. -/
def nameTokens (name : String) : List Token := if name = "" then [] else [.word name]

/-- The tokens of a graph. -/
def Digraph.tokens (d : Digraph) : List Token :=
  .word "digraph" :: nameTokens d.name ++
    .sign '\x7b' :: d.statements.flatMap (fun s => s.tokens ++ [.sign ';']) ++ [.sign '\x7d']

variable {s : Statement} {d : Digraph}

lemma statement?_tokens (h : s.Plain) : statement? s.tokens = some s := by
  cases s with
  | setting k v => exact if_pos h
  | defaults k as =>
    have has := attributes?_attributeTokens h.1 h.2
    simp [Statement.tokens, statement?, has]
  | node n as =>
    by_cases hnil : as = []
    · subst hnil
      rfl
    · have has := attributes?_attributeTokens hnil h
      simp [Statement.tokens, Statement.tokens.bracketed, hnil, statement?, has]
  | edge a b as =>
    by_cases hnil : as = []
    · subst hnil
      rfl
    · have has := attributes?_attributeTokens hnil h
      simp [Statement.tokens, Statement.tokens.bracketed, hnil, statement?, has]

lemma semicolon_not_mem_attributeTokens (h : ∀ x ∈ l, x.Plain) :
    Token.sign ';' ∉ attributeTokens l := by
  induction l with
  | nil => decide
  | cons x l ih =>
    have hx : Token.sign ';' ≠ x.2 := by
      rintro heq
      have := (h x List.mem_cons_self).isIdentifier
      rw [← heq] at this
      cases this
    have hl := ih fun y hy => h y (List.mem_cons_of_mem x hy)
    cases l with
    | nil => simp [attributeTokens, hx]
    | cons y l => simp [attributeTokens, hx, hl]

lemma semicolon_not_mem_tokens (h : s.Plain) : Token.sign ';' ∉ s.tokens := by
  have hbracketed {as : List Attribute} (has : ∀ x ∈ as, x.Plain) :
      Token.sign ';' ∉ Statement.tokens.bracketed as := by
    unfold Statement.tokens.bracketed
    split_ifs
    · exact List.not_mem_nil
    · simp [semicolon_not_mem_attributeTokens has]
  cases s with
  | setting k v =>
    have hv : Token.sign ';' ≠ v := by
      rintro rfl
      cases h
    simp [Statement.tokens, hv]
  | defaults k as => simp [Statement.tokens, semicolon_not_mem_attributeTokens h.2]
  | node n as => simp [Statement.tokens, hbracketed h]
  | edge a b as => simp [Statement.tokens, hbracketed h]

/-- Semicolons take statements apart again: one that stands in a name is part of its token. -/
lemma splitOn_tokens {l : List Statement} (h : ∀ s ∈ l, s.Plain) :
    (l.flatMap fun s => s.tokens ++ [.sign ';']).splitOn (.sign ';') =
      l.map Statement.tokens ++ [[]] := by
  induction l with
  | nil => rfl
  | cons s l ih =>
    have hs := semicolon_not_mem_tokens (h s List.mem_cons_self)
    rw [List.flatMap_cons, List.append_assoc, List.singleton_append, List.splitOn_append_cons_self,
      List.splitOn_eq_singleton hs, ih fun t ht => h t (List.mem_cons_of_mem s ht)]
    rfl

lemma mapM_statement?_tokens {l : List Statement} (h : ∀ s ∈ l, s.Plain) :
    (l.map Statement.tokens).mapM statement? = some l := by
  induction l with
  | nil => rfl
  | cons s l ih =>
    rw [List.map_cons, List.mapM_cons, statement?_tokens (h s List.mem_cons_self),
      ih fun t ht => h t (List.mem_cons_of_mem s ht)]
    rfl

lemma statements?_tokens {l : List Statement} (h : ∀ s ∈ l, s.Plain) :
    statements? (l.flatMap fun s => s.tokens ++ [.sign ';']) = some l := by
  rw [statements?, splitOn_tokens h, List.getLast?_concat, if_pos rfl, List.dropLast_concat,
    mapM_statement?_tokens h]

/-- **Tokens of a graph are read as this graph.** -/
lemma digraph?_tokens (h : ∀ s ∈ d.statements, s.Plain) : digraph? d.tokens = some d := by
  have hbody : body? (d.statements.flatMap (fun s => s.tokens ++ [.sign ';']) ++ [.sign '\x7d']) =
      some d.statements := by
    rw [body?, List.getLast?_concat, if_pos rfl, List.dropLast_concat, statements?_tokens h]
  obtain ⟨name, statements⟩ := d
  by_cases hname : name = ""
  · simp [Digraph.tokens, nameTokens, hname, digraph?, hbody]
  · simp [Digraph.tokens, nameTokens, hname, digraph?, hbody]

end AddonAtlas.Dot
