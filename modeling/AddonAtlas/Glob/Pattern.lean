/-!
Name globs: patterns for whole names.

A star stands for any run and a question mark for any one byte; brackets hold a choice of
characters, braces group, and a backslash takes the next character as it is. Two stars that fill a
component between slashes stand for any number of components.
-/

namespace AddonAtlas.Glob

/-- A part of a pattern. -/
inductive Token
  | char (c : Char)
  | anyOne
  | anyRun
  /-- Nothing, or components up to a slash. -/
  | leading
  /-- A slash and anything behind it. -/
  | trailing
  /-- A slash, or components between two slashes. -/
  | between
  | oneOf (negated : Bool) (ranges : List (Char × Char))
  deriving DecidableEq, Repr

/-- What a level of braces collects: tokens, and groups that are closed. -/
inductive Piece
  | token (t : Token)
  | group (ts : List Token)
  deriving DecidableEq, Repr

def Piece.tokens : Piece → List Token
  | .token t => [t]
  | .group ts => ts

/-- The tokens of pieces that were collected in reverse order. -/
def tokensOf (level : List Piece) : List Token := level.reverse.flatMap Piece.tokens

/-- The rest of a choice of characters behind its bracket, given the ranges before it in reverse
order and whether a range is open. A range that runs backwards is refused. -/
def choice? : (first opened : Bool) → List (Char × Char) → List Char →
    Option (List (Char × Char) × List Char)
  | _, _, _, [] => none
  | first, opened, ranges, c :: r =>
    if c = ']' && !first then
      some ((if opened then ('-', '-') :: ranges else ranges).reverse, r)
    else if c = '-' && !first && !opened then choice? false true ranges r
    else match opened, ranges with
      | true, (lo, _) :: rs =>
        if c < lo then none else choice? false false ((lo, c) :: rs) r
      | _, _ => choice? false false ((c, c) :: ranges) r

/-- The tokens of one or more stars, and what is left of the level and of the pattern. `before` is
the character in front of the stars, `r` what follows the first one. -/
def stars (inside : Bool) (before : Option Char) (level : List Piece) (r : List Char) :
    List Piece × List Char :=
  match r with
  | '*' :: r =>
    let plain := (.token .anyRun :: .token .anyRun :: level, r)
    let next := r.head?
    if level.isEmpty then
      if next == none || next == some '/' then ([.token .leading], r.drop 1) else plain
    else if before ≠ some '/' &&
        !(inside && (before == some ',' || before == some '\x7b')) then plain
    else
      let kept (last : Token) : List Piece :=
        match level with
        | .token .leading :: _ => level
        | .token .trailing :: _ => level
        | _ :: rest => .token last :: rest
        | [] => [.token last]
      if next == none || (inside && (next == some ',' || next == some '\x7d')) then
        (kept .trailing, r)
      else if next == some '/' then (kept .between, r.drop 1)
      else plain
  | r => (.token .anyRun :: level, r)

/-- Read a pattern, given the levels of braces that are open around it, innermost first. -/
def parseFrom : (fuel : Nat) → (before : Option Char) → (level : List Piece) →
    (outer : List (List Piece)) → List Char → Option (List Piece)
  | 0, _, _, _, _ => none
  | _, _, level, outer, [] => if outer.isEmpty then some level else none
  | n + 1, before, level, outer, c :: r =>
    if c = '?' then parseFrom n (some c) (.token .anyOne :: level) outer r
    else if c = '*' then
      let (level, s) := stars (!outer.isEmpty) before level r
      let last := if s.length < r.length then r[r.length - s.length - 1]? else some c
      parseFrom n last level outer s
    else if c = '[' then
      let (negated, s) : Bool × List Char := match r with
        | '!' :: s => (true, s)
        | '^' :: s => (true, s)
        | s => (false, s)
      match choice? true false [] s with
      | some (ranges, s) => parseFrom n (some ']') (.token (.oneOf negated ranges) :: level) outer s
      | none => none
    else if c = '\x7b' then parseFrom n (some c) [] (level :: outer) r
    else if c = '\x7d' then
      match outer with
      | o :: os => parseFrom n (some c) (.group (tokensOf level) :: o) os r
      | [] => none
    else if c = '\\' then
      match r with
      | d :: s => parseFrom n (some d) (.token (.char d) :: level) outer s
      | [] => none
    else parseFrom n (some c) (.token (.char c) :: level) outer r

/-- The tokens of a pattern; two stars alone stand for anything. -/
def parse? (pattern : String) : Option (List Token) :=
  match parseFrom (pattern.length + 1) none [] [] pattern.toList with
  | some [.token .leading] => some [.anyRun]
  | some level => some (tokensOf level)
  | none => none

end AddonAtlas.Glob
