import AddonAtlas.Value
import AddonAtlas.Text.Classes

/-!
JSON text as values.

The fields of an object are kept as written, repeats included, so that a decoder can refuse
them. A number too large for a float is read as an infinite one, which decoders refuse.
-/

namespace AddonAtlas.Json

open AddonAtlas.Text

def isSpace (c : Char) : Bool := c == ' ' || c == '\n' || c == '\t' || c == '\r'

def skipSpace (cs : List Char) : List Char := cs.dropWhile isSpace

/-- The largest number that digits are collected into. -/
def largest : Nat := UInt64.size - 1

/-- Digits collected from the left until the next one would not fit, with the others. -/
def collect (n : Nat) : List Char → Nat × List Char
  | [] => (n, [])
  | c :: r =>
    let m := n * 10 + digitValue c
    if largest < m then (n, c :: r) else collect m r

/-- `n · 10^e` by one multiplication or division, the exponent taken in steps that a float can
hold; infinite if it is too large. -/
def scaled (n : Nat) (e : Int) : Float :=
  go 64 (Float.ofNat n) e
where
  power (k : Nat) : Float := Float.ofScientific 1 false k
  go : Nat → Float → Int → Float
    | 0, f, _ => f
    | fuel + 1, f, e =>
      if e.natAbs ≤ 308 then
        if 0 ≤ e then f * power e.natAbs else f / power e.natAbs
      else if f == 0.0 then f
      else if 0 ≤ e then 1.0 / 0.0
      else go fuel (f / power 308) (e + 308)

/-- Whether a number has a minus sign, and what follows the sign. -/
def minus : List Char → Bool × List Char
  | '-' :: r => (true, r)
  | r => (false, r)

/-- Digits, at least one, and what follows them. -/
def digits? (cs : List Char) : Option (List Char × List Char) :=
  let ds := cs.takeWhile Char.isDigit
  if ds.isEmpty then none else some (ds, cs.drop ds.length)

/-- The digits before the point. No zero stands before others. -/
def whole? (cs : List Char) : Option (List Char × List Char) :=
  (digits? cs).filter fun (ds, _) => !(ds.head? == some '0' && 1 < ds.length)

/-- The digits behind the point, if there is one. -/
def places? : List Char → Option (Option (List Char) × List Char)
  | '.' :: r => (digits? r).map fun (ds, s) => (some ds, s)
  | r => some (none, r)

/-- Whether an exponent has a minus sign, and what follows its sign. -/
def exponentMinus : List Char → Bool × List Char
  | '+' :: r => (false, r)
  | r => minus r

/-- The exponent, if there is one. -/
def exponent? : List Char → Option (Option Int × List Char)
  | [] => some (none, [])
  | c :: r =>
    if c = 'e' || c = 'E' then
      let (negative, r) := exponentMinus r
      (digits? r).map fun (ds, s) =>
        let e : Int := ofDigits 10 ds
        (some (if negative then -e else e), s)
    else some (none, c :: r)

/-- The number that its parts write: an integer if nothing but digits is written and they fit,
else a float. -/
def ofParts (negative : Bool) (whole : List Char) (places : Option (List Char))
    (exponent : Option Int) : Value :=
  let (n, dropped) := collect 0 whole
  if places.isNone && exponent.isNone && dropped.isEmpty then
    if !negative then .int n
    else if n = 0 || UInt64.size / 2 < n then .float (-(Float.ofNat n))
    else .int (-n)
  else
    let ds := places.getD []
    let (m, unused) := collect n ds
    let used := ds.length - unused.length
    let e := (dropped.length : Int) - used + exponent.getD 0
    let x := if m = 0 then 0.0 else scaled m e
    .float (if negative then -x else x)

/-- A number and what follows it. -/
def number (cs : List Char) : Option (Value × List Char) := do
  let (negative, cs) := minus cs
  let (whole, cs) ← whole? cs
  let (places, cs) ← places? cs
  let (exponent, cs) ← exponent? cs
  some (ofParts negative whole places exponent, cs)

/-- Four hexadecimal digits and what follows them. -/
def hex4? : List Char → Option (Nat × List Char)
  | a :: b :: c :: d :: r =>
    if [a, b, c, d].all isHexDigit then some (ofDigits 16 [a, b, c, d], r) else none
  | _ => none

/-- The character that a letter behind a backslash stands for. -/
def simpleEscape? (c : Char) : Option Char :=
  if c = '"' || c = '\\' || c = '/' then some c
  else if c = 'b' then some '\x08'
  else if c = 'f' then some '\x0c'
  else if c = 'n' then some '\n'
  else if c = 'r' then some '\r'
  else if c = 't' then some '\t'
  else none

/-- An escape behind its backslash. The two halves of a character outside the basic plane must
stand together. -/
def escaped? : List Char → Option (Char × List Char)
  | 'u' :: r => do
    let (n, r) ← hex4? r
    if 0xD800 ≤ n && n < 0xDC00 then
      match r with
      | '\\' :: 'u' :: s =>
        let (m, s) ← hex4? s
        if 0xDC00 ≤ m && m < 0xE000 then
          some (Char.ofNat (0x10000 + (n - 0xD800) * 0x400 + (m - 0xDC00)), s)
        else none
      | _ => none
    else if 0xDC00 ≤ n && n < 0xE000 then none
    else some (Char.ofNat n, r)
  | c :: r => (simpleEscape? c).map fun d => (d, r)
  | [] => none

/-- The inside of a string, behind its opening quote, and what follows the closing one. -/
def inside : Nat → List Char → List Char → Option (String × List Char)
  | 0, _, _ => none
  | _ + 1, _, [] => none
  | n + 1, acc, c :: r =>
    if c = '"' then some (String.ofList acc.reverse, r)
    else if c = '\\' then match escaped? r with
      | some (d, s) => inside n (d :: acc) s
      | none => none
    else if c.toNat < 32 then none
    else inside n (c :: acc) r

/-- How deep lists and objects may be nested. -/
def deepest : Nat := 127

/-- A keyword and what follows it. -/
def word (w : String) (v : Value) (cs : List Char) : Option (Value × List Char) :=
  if w.toList.isPrefixOf cs then some (v, cs.drop w.length) else none

mutual

/-- A value, with at most `depth` lists and objects around what is in it. -/
def value : (fuel depth : Nat) → List Char → Option (Value × List Char)
  | 0, _, _ => none
  | fuel + 1, depth, cs =>
    match skipSpace cs with
    | '\x7b' :: r =>
      if depth = 0 then none
      else match skipSpace r with
        | '\x7d' :: s => some (.object [], s)
        | s => (fields fuel (depth - 1) [] s).map fun (fs, t) => (.object fs, t)
    | '[' :: r =>
      if depth = 0 then none
      else match skipSpace r with
        | ']' :: s => some (.list [], s)
        | s => (items fuel (depth - 1) [] s).map fun (vs, t) => (.list vs, t)
    | '"' :: r => (inside (r.length + 1) [] r).map fun (s, t) => (.text s, t)
    | 't' :: r => word "true" (.bool true) ('t' :: r)
    | 'f' :: r => word "false" (.bool false) ('f' :: r)
    | 'n' :: r => word "null" .null ('n' :: r)
    | r => number r

def items : (fuel depth : Nat) → List Value → List Char → Option (List Value × List Char)
  | 0, _, _, _ => none
  | fuel + 1, depth, acc, cs =>
    match value fuel depth cs with
    | none => none
    | some (v, r) => match skipSpace r with
      | ',' :: s => items fuel depth (v :: acc) s
      | ']' :: s => some ((v :: acc).reverse, s)
      | _ => none

def fields : (fuel depth : Nat) → List (String × Value) → List Char →
    Option (List (String × Value) × List Char)
  | 0, _, _, _ => none
  | fuel + 1, depth, acc, cs =>
    match skipSpace cs with
    | '"' :: r => match inside (r.length + 1) [] r with
      | none => none
      | some (k, s) => match skipSpace s with
        | ':' :: t => match value fuel depth t with
          | none => none
          | some (v, u) => match skipSpace u with
            | ',' :: w => fields fuel depth ((k, v) :: acc) w
            | '\x7d' :: w => some (((k, v) :: acc).reverse, w)
            | _ => none
        | _ => none
    | _ => none

end

/-- The value a whole text writes. -/
def read? (text : String) : Option Value :=
  let cs := text.toList
  match value (2 * cs.length + 2) deepest cs with
  | some (v, rest) => if (skipSpace rest).isEmpty then some v else none
  | none => none

end AddonAtlas.Json
