import AddonAtlas.Files.Path

/-!
Path globs: patterns for paths, component by component.

A star stands for any run and a question mark for any one character inside a component; brackets
hold a choice. A component of two stars stands for any number of directories.
-/

namespace AddonAtlas.PathGlob

/-- A part of the pattern of one component. -/
inductive Token
  | char (c : Char)
  | anyOne
  | anyRun
  | oneOf (negated : Bool) (ranges : List (Char × Char))
  deriving DecidableEq, Repr

/-- The character that a token stands for, if it stands for just one. -/
def Token.char? : Token → Option Char
  | .char c => some c
  | _ => none

/-- The pattern of one component. -/
inductive Component
  /-- Any number of directories. -/
  | deep
  | plain (tokens : List Token)
  deriving DecidableEq, Repr

/-- The ranges that a choice is written with. -/
def ranges : List Char → List (Char × Char)
  | a :: '-' :: b :: r => (a, b) :: ranges r
  | c :: r => (c, c) :: ranges r
  | [] => []

/-- Split the inside of a choice from what follows its closing bracket; the first character is
always inside. -/
def inside? : List Char → Option (List Char × List Char)
  | [] => none
  | c :: r =>
    let more := r.takeWhile (· ≠ ']')
    if more.length < r.length then some (c :: more, r.drop (more.length + 1)) else none

/-- The tokens of a component. Several stars in a row are refused. -/
def tokens? : (fuel : Nat) → List Char → Option (List Token)
  | 0, _ => none
  | _, [] => some []
  | n + 1, c :: r =>
    if c = '?' then (tokens? n r).map (.anyOne :: ·)
    else if c = '*' then
      if r.head? == some '*' then none else (tokens? n r).map (.anyRun :: ·)
    else if c = '[' then
      let (negated, r) : Bool × List Char := match r with
        | '!' :: s => (true, s)
        | s => (false, s)
      match inside? r with
      | some (cs, s) => (tokens? n s).map (.oneOf negated (ranges cs) :: ·)
      | none => none
    else (tokens? n r).map (.char c :: ·)

def Component.parse? (s : String) : Option Component :=
  if s = "**" then some .deep else (tokens? (s.length + 1) s.toList).map .plain

def accepts : List Token → List Char → Bool
  | [], cs => cs.isEmpty
  | .anyRun :: ts, cs => anyEnd (accepts ts) cs
  | .char d :: ts, c :: r => c == d && accepts ts r
  | .anyOne :: ts, _ :: r => accepts ts r
  | .oneOf negated rs :: ts, c :: r =>
    (rs.any fun (lo, hi) => lo ≤ c && c ≤ hi) != negated && accepts ts r
  | _, [] => false
where
  /-- Whether a text or one of its ends passes a test. -/
  anyEnd (f : List Char → Bool) : List Char → Bool
    | [] => f []
    | c :: r => f (c :: r) || anyEnd f r

namespace Component

def isDeep (c : Component) : Bool := c == .deep

/-- Whether the pattern matches the name of a file or directory. -/
def matchesName (c : Component) (name : String) : Bool :=
  match c with
  | .deep => true
  | .plain ts => accepts ts name.toList

/-- The text that a pattern without special characters stands for. -/
def text? : Component → Option String
  | .deep => none
  | .plain ts => (ts.mapM Token.char?).map String.ofList

def startsWithDot : Component → Bool
  | .plain (.char '.' :: _) => true
  | _ => false

end Component

end AddonAtlas.PathGlob
