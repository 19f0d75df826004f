import AddonAtlas.Text.Classes

/-!
Characters of markup, and the references that stand for characters.
-/

namespace AddonAtlas.Markup

open AddonAtlas.Text

/-- Characters that may stand in a document. -/
def isChar (c : Char) : Bool :=
  let n := c.toNat
  n == 9 || n == 10 || n == 13 || (0x20 ≤ n && n ≤ 0xD7FF) || (0xE000 ≤ n && n ≤ 0xFFFD) ||
    0x10000 ≤ n

def isSpace (c : Char) : Bool := c == ' ' || c == '\t' || c == '\n' || c == '\r'

/-- Characters that may begin a name. -/
def isNameStart (c : Char) : Bool :=
  let n := c.toNat
  if n < 128 then c.isAlpha || c == '_'
  else (0xC0 ≤ n && n ≤ 0xD6) || (0xD8 ≤ n && n ≤ 0xF6) || (0xF8 ≤ n && n ≤ 0x2FF) ||
    (0x370 ≤ n && n ≤ 0x37D) || (0x37F ≤ n && n ≤ 0x1FFF) || (0x200C ≤ n && n ≤ 0x200D) ||
    (0x2070 ≤ n && n ≤ 0x218F) || (0x2C00 ≤ n && n ≤ 0x2FEF) || (0x3001 ≤ n && n ≤ 0xD7FF) ||
    (0xF900 ≤ n && n ≤ 0xFDCF) || (0xFDF0 ≤ n && n ≤ 0xFFFD) || (0x10000 ≤ n && n ≤ 0xEFFFF)

/-- Characters that may stand in a name. -/
def isNameChar (c : Char) : Bool :=
  let n := c.toNat
  isNameStart c || c.isDigit || c == '-' || c == '.' || n == 0xB7 ||
    (0x300 ≤ n && n ≤ 0x36F) || (0x203F ≤ n && n ≤ 0x2040)

/-- The character that a number stands for; numbers of no character stand for a replacement sign. -/
def numbered? (base : Nat) (ds : List Char) : Option Char :=
  let n := ofDigits base ds
  if ds.isEmpty || UInt32.size ≤ n then none
  else
    let c := if n < 0xD800 || (0xDFFF < n && n < 0x110000) then Char.ofNat n else '\ufffd'
    if isChar c then some c else none

/-- The character that a name stands for. -/
def named? (s : String) : Option Char :=
  match s with
  | "quot" => some '"'
  | "amp" => some '&'
  | "apos" => some '\''
  | "lt" => some '<'
  | "gt" => some '>'
  | _ => none

/-- A reference behind its ampersand, and what follows it. -/
def reference? (cs : List Char) : Option (Char × List Char) :=
  let closed (c : Option Char) (r : List Char) : Option (Char × List Char) :=
    match c, r with
    | some c, ';' :: s => some (c, s)
    | _, _ => none
  match cs with
  | '#' :: 'x' :: r =>
    let ds := r.takeWhile isHexDigit
    closed (numbered? 16 ds) (r.drop ds.length)
  | '#' :: r =>
    let ds := r.takeWhile Char.isDigit
    closed (numbered? 10 ds) (r.drop ds.length)
  | r =>
    let n := r.takeWhile isNameChar
    closed (named? (String.ofList n)) (r.drop n.length)

/-- The value of an attribute as written: references are resolved and blank space becomes
blanks. -/
def attributeText? : (fuel : Nat) → List Char → Option (List Char)
  | 0, _ => none
  | _ + 1, [] => some []
  | n + 1, '&' :: r => match reference? r with
    | some (c, s) => (attributeText? n s).map (c :: ·)
    | none => none
  | n + 1, '\r' :: '\n' :: r => attributeText? n ('\n' :: r)
  | n + 1, c :: r =>
    (attributeText? n r).map ((if c = '\n' || c = '\r' || c = '\t' then ' ' else c) :: ·)

/-- Text as written: references are resolved, and every line end becomes a line feed. -/
def contentText? : (fuel : Nat) → List Char → Option (List Char)
  | 0, _ => none
  | _ + 1, [] => some []
  | n + 1, '&' :: r => match reference? r with
    | some (c, s) => (contentText? n s).map (c :: ·)
    | none => none
  | n + 1, '\r' :: '\n' :: r => contentText? n ('\n' :: r)
  | n + 1, c :: r => (contentText? n r).map ((if c = '\r' then '\n' else c) :: ·)

/-- Text where ampersands mean nothing. -/
def plainText : List Char → List Char
  | [] => []
  | '\r' :: '\n' :: r => '\n' :: plainText r
  | c :: r => (if c = '\r' then '\n' else c) :: plainText r

end AddonAtlas.Markup
