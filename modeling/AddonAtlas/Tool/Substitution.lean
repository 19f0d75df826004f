/-!
Stream edits: substitutions applied to every line of a text.

A pattern is made of characters, a dot for any character, repeated items, anchors and groups that
can be named in the replacement. Matching is by the leftmost match, repetitions taking as much as
they can.
-/

namespace AddonAtlas.Tool

/-- One item of a pattern. -/
inductive Item
  | char (c : Char)
  | any
  | oneOf (negated : Bool) (cs : List Char)
  | lineStart
  | lineEnd
  | groupStart
  | groupEnd
  deriving Repr, DecidableEq

/-- A pattern: items, each with whether it is repeated. -/
abbrev EditPattern := List (Item × Bool)

namespace EditPattern

/-- The end of a class of characters, and what it holds. -/
def classOf : (first : Bool) → List Char → List Char → Option (List Char × List Char)
  | _, _, [] => none
  | first, acc, c :: r =>
    if c = ']' && !first then some (acc.reverse, r) else classOf false (c :: acc) r

/-- Mark an item as repeated if a star follows. -/
def starred (i : Item) : List Char → (Item × Bool) × List Char
  | '*' :: r => ((i, true), r)
  | r => ((i, false), r)

def parse : (fuel : Nat) → (first : Bool) → List Char → Option EditPattern
  | 0, _, _ => none
  | _ + 1, _, [] => some []
  | n + 1, _, '\\' :: c :: r =>
    if c = '(' then (parse n true r).map ((.groupStart, false) :: ·)
    else if c = ')' then (parse n false r).map ((.groupEnd, false) :: ·)
    else
      let (i, s) := starred (.char (if c = 'n' then '\n' else if c = 't' then '\t' else c)) r
      (parse n false s).map (i :: ·)
  | n + 1, first, c :: r =>
    if c = '^' && first then (parse n true r).map ((.lineStart, false) :: ·)
    else if c = '$' && (r.isEmpty || "\\)".toList.isPrefixOf r) then
      (parse n false r).map ((.lineEnd, false) :: ·)
    else if c = '*' && first then (parse n false r).map ((.char '*', false) :: ·)
    else if c = '[' then
      let (negated, s) := match r with
        | '^' :: s => (true, s)
        | s => (false, s)
      match classOf true [] s with
      | none => none
      | some (cs, t) =>
        let (i, u) := starred (.oneOf negated cs) t
        (parse n false u).map (i :: ·)
    else
      let (i, s) := starred (if c = '.' then .any else .char c) r
      (parse n false s).map (i :: ·)

end EditPattern

def Item.accepts (i : Item) (c : Char) : Bool :=
  match i with
  | .char d => c == d
  | .any => true
  | .oneOf negated cs => cs.contains c != negated
  | _ => false

/-- Match a pattern at a place of a line; gives the end and the groups, each with its number, its
beginning and its end. -/
def matchAt (row : Array Char) : (fuel : Nat) → EditPattern → Nat → List (Nat × Nat) →
    List (Nat × Nat × Nat) → Nat → Option (Nat × List (Nat × Nat × Nat))
  | 0, _, _, _, _, _ => none
  | _ + 1, [], i, _, groups, _ => some (i, groups)
  | n + 1, (item, repeated) :: rest, i, opened, groups, count =>
    match item with
    | .lineStart => if i = 0 then matchAt row n rest i opened groups count else none
    | .lineEnd => if i = row.size then matchAt row n rest i opened groups count else none
    | .groupStart => matchAt row n rest i ((count + 1, i) :: opened) groups (count + 1)
    | .groupEnd => match opened with
      | (k, b) :: o => matchAt row n rest i o ((k, b, i) :: groups) count
      | [] => none
    | item =>
      let accepted := match row[i]? with
        | some c => item.accepts c
        | none => false
      if repeated then
        let longer :=
          if accepted then matchAt row n ((item, true) :: rest) (i + 1) opened groups count
          else none
        match longer with
        | some r => some r
        | none => matchAt row n rest i opened groups count
      else if accepted then matchAt row n rest (i + 1) opened groups count
      else none

/-- The replacement for a match. -/
def replacement (row : Array Char) (b e : Nat) (groups : List (Nat × Nat × Nat)) :
    List Char → List Char
  | [] => []
  | '\\' :: c :: r =>
    let text :=
      if c.isDigit then match groups.find? fun g => g.1 = c.toNat - 48 with
        | some (_, x, y) => (row.extract x y).toList
        | none => []
      else if c = 'n' then ['\n']
      else [c]
    text ++ replacement row b e groups r
  | '&' :: r => (row.extract b e).toList ++ replacement row b e groups r
  | c :: r => c :: replacement row b e groups r

/-- One substitution. -/
structure Substitution where
  pattern : EditPattern
  replacement : List Char
  everywhere : Bool

/-- Text up to an unescaped delimiter; an escaped delimiter stands for itself. -/
def upTo (d : Char) : List Char → List Char → Option (List Char × List Char)
  | _, [] => none
  | acc, '\\' :: c :: r =>
    if c = d then upTo d (c :: acc) r else upTo d (c :: '\\' :: acc) r
  | acc, c :: r => if c = d then some (acc.reverse, r) else upTo d (c :: acc) r

/-- Substitutions separated by semicolons. -/
def Substitution.parseAll : (fuel : Nat) → List Char → Option (List Substitution)
  | 0, _ => none
  | n + 1, cs =>
    match cs.dropWhile fun c => c == ' ' || c == ';' || c == '\n' with
    | [] => some []
    | 's' :: d :: r => do
      let (p, r) ← upTo d [] r
      let (q, r) ← upTo d [] r
      let flags := r.takeWhile fun c => c ≠ ';' && c ≠ '\n'
      guard (flags.all fun c => c == 'g' || c == ' ')
      let pattern ← EditPattern.parse (p.length + 1) true p
      let rest ← parseAll n (r.drop flags.length)
      some (⟨pattern, q, flags.contains 'g'⟩ :: rest)
    | _ => none

/-- The first match from a place of a line on. -/
def findFrom (row : Array Char) (p : EditPattern) : (fuel : Nat) → Nat →
    Option (Nat × Nat × List (Nat × Nat × Nat))
  | 0, _ => none
  | n + 1, i =>
    match matchAt row (p.length + row.size + 2) p i [] [] 0 with
    | some (e, groups) => some (i, e, groups)
    | none => if i < row.size then findFrom row p n (i + 1) else none

/-- Replace matches from a place of a line on. -/
def Substitution.applyFrom (s : Substitution) (row : Array Char) : (fuel : Nat) → Nat → List Char
  | 0, i => (row.extract i row.size).toList
  | n + 1, i =>
    match findFrom row s.pattern (row.size + 1) i with
    | none => (row.extract i row.size).toList
    | some (b, e, groups) =>
      let before := (row.extract i b).toList
      let text := Tool.replacement row b e groups s.replacement
      if !s.everywhere then before ++ text ++ (row.extract e row.size).toList
      else if e = b then
        before ++ text ++ (row.extract b (b + 1)).toList ++
          (if b < row.size then applyFrom s row n (b + 1) else [])
      else before ++ text ++ applyFrom s row n e

/-- Apply substitutions to every line of a text, keeping its line ends. -/
def editText (ss : List Substitution) (text : String) : String :=
  let edit (l : String) : String :=
    ss.foldl (fun l s =>
      let a := l.toList.toArray
      String.ofList (s.applyFrom a (a.size + 1) 0)) l
  match (text.splitOn "\n").reverse with
  | [] => text
  | last :: before =>
    let last := if last.isEmpty then last else edit last
    "\n".intercalate ((before.map edit).reverse ++ [last])

end AddonAtlas.Tool
