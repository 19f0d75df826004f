import AddonAtlas.Glob.Pattern

/-!
Which names a pattern matches.

Names are matched byte by byte: a question mark and a choice stand for one byte, so characters
outside ASCII take more than one of them.
-/

namespace AddonAtlas.Glob

def slash : UInt8 := 47

def bytesOf (c : Char) : List UInt8 := (String.singleton c).toUTF8.toList

/-- The bytes that a range of characters covers: all bytes between the last one of its lower end and
the first one of its upper end, and the other bytes of both ends. -/
def rangeHas (lo hi : Char) (b : UInt8) : Bool :=
  let low := bytesOf lo
  let high := bytesOf hi
  if lo = hi then low.contains b
  else
    low.dropLast.contains b || (high.drop 1).contains b ||
      (low.getLastD 0 ≤ b && b ≤ high.headD 0)

def choiceHas (negated : Bool) (ranges : List (Char × Char)) (b : UInt8) : Bool :=
  ranges.any (fun r => rangeHas r.1 r.2 b) != negated

/-- A text and all its ends. -/
def ends : List UInt8 → List (List UInt8)
  | [] => [[]]
  | b :: r => (b :: r) :: ends r

/-- What can be left of a text behind one of its slashes. -/
def behindSlashes : List UInt8 → List (List UInt8)
  | [] => []
  | b :: r => if b = slash then r :: behindSlashes r else behindSlashes r

/-- What can be left of a text behind a token. -/
def Token.rests (t : Token) (s : List UInt8) : List (List UInt8) :=
  match t with
  | .char c => if (bytesOf c).isPrefixOf s then [s.drop (bytesOf c).length] else []
  | .anyOne => s.tail?.toList
  | .anyRun => ends s
  | .leading => s :: behindSlashes s
  | .trailing => match s with
    | b :: r => if b = slash then ends r else []
    | [] => []
  | .between => match s with
    | b :: r => if b = slash then r :: behindSlashes r else []
    | [] => []
  | .oneOf negated ranges => match s with
    | b :: r => if choiceHas negated ranges b then [r] else []
    | [] => []

/-- One list of each length. All are ends of one text, so equal lengths mean equal lists. -/
def distinct (l : List (List UInt8)) : List (List UInt8) :=
  l.foldl (fun acc s => if acc.any fun t => t.length == s.length then acc else s :: acc) []

/-- Whether tokens match a whole text. -/
def accepts (tokens : List Token) (text : String) : Bool :=
  let rests := tokens.foldl (fun rests t => distinct (rests.flatMap t.rests)) [text.toUTF8.toList]
  rests.contains []

end AddonAtlas.Glob
