import AddonAtlas.Text.Classes

/-!
The inside of string literals, cut into pieces.

A string opens with flag letters and a quote. Its inside is a sequence of plain runs, escapes,
doubled braces and, in formatted strings, interpolations; `nextPiece` cuts one piece off.
-/

namespace AddonAtlas.Source

open AddonAtlas.Text

/-- How a string literal is delimited and read. -/
structure Quote where
  mark : Char
  triple : Bool
  format : Bool
  raw : Bool
  bytes : Bool
  deriving Repr, DecidableEq

namespace Quote

def isFlag (c : Char) : Bool :=
  c == 'f' || c == 'F' || c == 'r' || c == 'R' || c == 'b' || c == 'B' || c == 'u' || c == 'U'

def isMark (c : Char) : Bool := c == '"' || c == '\'' || c == '\x60'

/-- The opening of a string, and how many characters it takes. -/
def opening (cs : List Char) : Option (Quote × Nat) :=
  let flags := cs.takeWhile isFlag
  let has (a b : Char) : Bool := flags.any fun c => c == a || c == b
  let quote (m : Char) (t : Bool) : Quote := ⟨m, t, has 'f' 'F', has 'r' 'R', has 'b' 'B'⟩
  match cs.drop flags.length with
  | '\x60' :: _ => some (quote '\x60' false, flags.length + 1)
  | '\'' :: '\'' :: '\'' :: _ => some (quote '\'' true, flags.length + 3)
  | '\'' :: _ => some (quote '\'' false, flags.length + 1)
  | '"' :: '"' :: '"' :: _ => some (quote '"' true, flags.length + 3)
  | '"' :: _ => some (quote '"' false, flags.length + 1)
  | _ => none

/-- Where a run of plain characters ends. -/
inductive RunEnd
  /-- Plain text of some length. -/
  | plain (length : Nat)
  /-- The closing quote, with the characters skipped before it. -/
  | closing (length : Nat)
  /-- Nothing plain: a backslash or a brace comes first. -/
  | special
  /-- The string cannot go on. -/
  | broken

/-- Characters to step over after a backslash in a raw string: a quote or a backslash, and then a
line end. -/
def rawStep (mark : Char) (cs : List Char) : Nat :=
  let lineEnd : List Char → Nat
    | '\r' :: '\n' :: _ => 2
    | '\r' :: _ => 1
    | '\n' :: _ => 1
    | _ => 0
  match cs with
  | c :: r => if c = mark || c = '\\' then 1 + lineEnd r else lineEnd (c :: r)
  | [] => 0

/-- The plain run at the front of the inside of a string. `skip` characters are stepped over
unseen, `taken` have been passed and `has` tells whether one of them counts as content. -/
def plainRun (q : Quote) : (skip taken : Nat) → (has : Bool) → List Char → RunEnd
  | _, _, _, [] => .broken
  | skip + 1, taken, has, _ :: r => plainRun q skip (taken + 1) has r
  | 0, taken, has, c :: r =>
    let stop : RunEnd := if has then .plain taken else .special
    if c = '\x00' then .broken
    else if q.format && (c = '\x7b' || c = '\x7d') then stop
    else if c = '\\' then
      if q.raw then plainRun q (rawStep q.mark r) (taken + 1) has r
      else if q.bytes then match r with
        | d :: _ => if d = 'N' || d = 'u' || d = 'U' then plainRun q 2 (taken + 1) true r else stop
        | [] => stop
      else stop
    else if c = q.mark then
      if q.triple then match r with
        | d :: e :: _ =>
          if d = q.mark then
            if e = q.mark then (if has then .plain taken else .closing (taken + 3))
            else .plain (taken + 2)
          else .plain (taken + 1)
        | [d] => if d = q.mark then .plain (taken + 2) else .plain (taken + 1)
        | [] => .plain (taken + 1)
      else if has then .plain taken
      else .closing (taken + 1)
    else if c = '\n' && has && !q.triple then .broken
    else plainRun q 0 (taken + 1) true r

/-- The length of the escape at the front, which begins with a backslash: a code in hexadecimal
or decimal digits, a line end, a single letter or sign, or a character name. -/
def escapeLength (cs : List Char) : Option Nat :=
  let hex (n : Nat) (r : List Char) : Option Nat :=
    if ((r.take n).all isHexDigit) && (r.take n).length == n then some (2 + n) else none
  match cs with
  | '\\' :: '\r' :: '\n' :: _ => some 3
  | '\\' :: c :: r =>
    if c = 'u' then hex 4 r
    else if c = 'U' then hex 8 r
    else if c = 'x' then hex 2 r
    else if c.isDigit then some (2 + (((r.take 2).takeWhile Char.isDigit).length))
    else if "'\"abfrntv\\\n".toList.contains c then some 2
    else if c = 'N' then match r with
      | '\x7b' :: s =>
        let name := s.takeWhile fun d => d ≠ '\x7d'
        if name.isEmpty || name.length == s.length then none else some (name.length + 4)
      | _ => none
    else none
  | _ => none

/-- One piece of the inside of a string, with its length. -/
inductive Piece
  | plain (length : Nat)
  | escape (length : Nat)
  /-- Two equal braces, which stand for one. -/
  | doubledBrace
  /-- The brace that opens an interpolation. -/
  | interpolation
  | closing (length : Nat)

/-- The piece at the front of the inside of a string; none if the string cannot go on. -/
def nextPiece (q : Quote) (cs : List Char) : Option Piece :=
  let run := match plainRun q 0 0 false cs with
    | .plain n => some (Piece.plain n)
    | .closing n => some (.closing n)
    | .special => match escapeLength cs with
      | some n => some (.escape n)
      | none => some (.plain 1)
    | .broken => none
  match cs with
  | c :: d :: _ =>
    if q.format && (c = '\x7b' || c = '\x7d') then
      if d = c then some .doubledBrace else if c = '\x7b' then some .interpolation else none
    else run
  | [c] =>
    if q.format && c = '\x7b' then some .interpolation
    else if q.format && c = '\x7d' then none
    else run
  | [] => none

end Quote

end AddonAtlas.Source
