import AddonAtlas.Source.Layout
import AddonAtlas.Text.Position
import AddonAtlas.Source.Quoted
import AddonAtlas.Source.Tree

/-!
Tokens of Python sources.
-/

namespace AddonAtlas.Source

open AddonAtlas.Text

inductive Lexeme
  | newline
  | indent (width : Nat)
  | dedent
  /-- The opening of a string. -/
  | quote (q : Quote)
  /-- A name or a keyword. -/
  | word (text : String)
  | integer
  | float
  /-- An operator or a delimiter. -/
  | sign (text : String)
  /-- A conversion letter after an exclamation mark. -/
  | conversion
  | finish
  | unknown
  deriving Repr, DecidableEq

namespace Lexeme

/-- Groups of digits, each followed by at most one underscore. -/
def digitGroups : List Char → Nat
  | [] => 0
  | [c] => if c.isDigit then 1 else 0
  | c :: d :: r =>
    if c.isDigit then
      if d = '_' then 2 + digitGroups r
      else 1 + digitGroups (d :: r)
    else 0

/-- Digits of a base, each preceded by at most one underscore. -/
def basedDigits (p : Char → Bool) : List Char → Nat
  | [] => 0
  | [c] => if p c then 1 else 0
  | c :: d :: r =>
    if p c then 1 + basedDigits p (d :: r)
    else if c = '_' && p d then 2 + basedDigits p r
    else 0

def exponentLength : List Char → Nat
  | c :: r =>
    if c = 'e' || c = 'E' then
      let signed := match r with
        | d :: _ => if d = '+' || d = '-' then 1 else 0
        | [] => 0
      match digitGroups (r.drop signed) with
      | 0 => 0
      | n => 1 + signed + n
    else 0
  | [] => 0

def suffixLength (p : Char → Bool) (cs : List Char) : Nat :=
  if cs.head?.any p then 1 else 0

/-- The length of the float at the front, zero if there is none. -/
def floatLength (cs : List Char) : Nat :=
  let n := digitGroups cs
  let imaginary (k : Nat) : Nat :=
    k + suffixLength (fun c => c = 'j' || c = 'J') (cs.drop k)
  match cs.drop n with
  | '.' :: r =>
    let f := digitGroups r
    if n = 0 && f = 0 then 0
    else imaginary (n + 1 + f + exponentLength (r.drop f))
  | r =>
    match exponentLength r with
    | 0 => 0
    | k => if n = 0 then 0 else imaginary (n + k)

/-- The length of the integer at the front, zero if there is none. -/
def integerLength (cs : List Char) : Nat :=
  let long (k : Nat) : Nat := k + suffixLength (fun c => c = 'l' || c = 'L') (cs.drop k)
  let plain :=
    match digitGroups cs with
    | 0 => 0
    | n => n + suffixLength (fun c => c = 'l' || c = 'L' || c = 'j' || c = 'J') (cs.drop n)
  let based (p : Char → Bool) (r : List Char) : Nat :=
    match basedDigits p r with
    | 0 => plain
    | n => long (2 + n)
  match cs with
  | '0' :: c :: r =>
    if c = 'x' || c = 'X' then based isHexDigit r
    else if c = 'o' || c = 'O' then based (fun d => '0' ≤ d && d ≤ '7') r
    else if c = 'b' || c = 'B' then based (fun d => d = '0' || d = '1') r
    else plain
  | _ => plain

/-- Operators and delimiters, longer ones before those they begin with. -/
def signs : List String :=
  ["...", "**=", "//=", ">>=", "<<=",
   "**", "//", ">>", "<<", "<=", ">=", "==", "!=", "<>", "->",
   "+=", "-=", "*=", "/=", "@=", "%=", "&=", "^=", "|=",
   "+", "-", "*", "/", "%", "@", "&", "|", "^", "~", "<", ">", "=",
   "(", ")", "[", "]", "\x7b", "\x7d", ",", ":", ".", ";"]

/-- The token at the front of a text without blank space before it, and its length. -/
def ofChars (cs : List Char) : Lexeme × Nat :=
  match cs with
  | [] => (.finish, 0)
  | c :: r =>
    if isIdentifierStart c then
      let w := c :: r.takeWhile isIdentifierContinue
      (.word (String.ofList w), w.length)
    else
      let f := floatLength cs
      let n := integerLength cs
      if n < f then (.float, f)
      else if 0 < n then (.integer, n)
      else match signs.find? fun s => s.toList.isPrefixOf cs with
        | some s => (.sign s, s.length)
        | none => match cs with
          | '!' :: d :: _ => if 'a' ≤ d && d ≤ 'z' then (.conversion, 2) else (.unknown, 0)
          | _ => (.unknown, 0)

end Lexeme

/-- A comment, from its sign to the end of its line. -/
structure Comment where
  start : Position
  stop : Position

/-- The node of a comment. -/
def Comment.tree (c : Comment) : Tree :=
  .node ⟨.comment, none, c.start.line, c.stop.line, c.start.textTo c.stop⟩ []

/-- A token, with the comments that stand before it. -/
structure Token where
  lexeme : Lexeme
  start : Position
  stop : Position
  comments : List Comment

namespace Token

/-- Blank space between tokens where line ends mean nothing. -/
def isSpace (c : Char) : Bool :=
  c == ' ' || c == '\t' || c == '\n' || c == '\r' || c == '\x0b' || c == '\x0c' ||
    c == '\ufeff' || c == '\u2060' || c == '\u200b'

/-- The length of the line continuation at the front: a backslash and the line end it hides. -/
def continuationLength : List Char → Nat
  | '\\' :: '\n' :: _ => 2
  | '\\' :: '\r' :: '\n' :: _ => 3
  | ['\\'] => 1
  | _ => 0

/-- The next token. Each round passes one comment or one line continuation, so a fuel of the
length of the text suffices. -/
def next (e : Expected) (inFormat : Bool) (margins : List Nat) :
    (fuel : Nat) → List Comment → Position → Token
  | 0, comments, p => ⟨.unknown, p, p, comments⟩
  | fuel + 1, comments, p =>
    match LayoutToken.next e inFormat margins p.rest with
    | (some .newline, _) => ⟨.newline, p, p, comments⟩
    | (some (.indent w), _) => ⟨.indent w, p, p, comments⟩
    | (some .dedent, _) => ⟨.dedent, p, p, comments⟩
    | (none, openAt) =>
      let quoted := openAt.bind fun blank =>
        let s := p.advance blank
        (Quote.opening s.rest).map fun (q, n) => (⟨.quote q, s, s.advance n, comments⟩ : Token)
      match quoted with
      | some t => t
      | none =>
        let s := p.skipWhile isSpace
        match s.rest with
        | '#' :: _ =>
          let t := s.skipWhile (· ≠ '\n')
          next e inFormat margins fuel (comments ++ [⟨s, t⟩]) t
        | rest =>
          match continuationLength rest with
          | 0 =>
            let (x, n) := Lexeme.ofChars rest
            ⟨x, s, s.advance n, comments⟩
          | n => next e inFormat margins fuel comments (s.advance n)

end Token

end AddonAtlas.Source
