import AddonAtlas.Value
import AddonAtlas.Decimal.Read
import AddonAtlas.Text.Classes

/-!
Bare scalars of TOML: booleans, numbers, dates and times.
-/

namespace AddonAtlas.Toml

open AddonAtlas.Text

/-- The characters of bare scalars. -/
def isScalarChar (c : Char) : Bool :=
  c.isAlphanum || c == '_' || c == '+' || c == '-' || c == '.' || c == ':'

/-- The pieces between underscores. -/
def pieces (cs : List Char) : List (List Char) :=
  match cs with
  | [] => [[]]
  | c :: r => match pieces r with
    | [] => [[c]]
    | p :: ps => if c = '_' then [] :: p :: ps else (c :: p) :: ps

/-- Digits of a base, perhaps with single underscores between them, without the underscores. -/
def digits? (base : Nat) (cs : List Char) : Option (List Char) :=
  let ps := pieces cs
  if ps.all fun p => !p.isEmpty && p.all fun c => c.isAlphanum && digitValue c < base then
    some ps.flatten
  else none

/-- Decimal digits without needless zeros in front. -/
def plainDigits? (cs : List Char) : Option (List Char) :=
  (digits? 10 cs).bind fun ds =>
    if ds.head? == some '0' && 1 < ds.length then none else some ds

def integer? (negative signed : Bool) (cs : List Char) : Option Value :=
  let based (base : Nat) (r : List Char) : Option Value :=
    if signed then none else (digits? base r).map fun ds => .int (ofDigits base ds)
  match cs with
  | '0' :: 'x' :: r => based 16 r
  | '0' :: 'o' :: r => based 8 r
  | '0' :: 'b' :: r => based 2 r
  | _ => (plainDigits? cs).map fun ds =>
    let n : Int := ofDigits 10 ds
    .int (if negative then -n else n)

/-- The value of an exponent behind its letter. -/
def exponent? (cs : List Char) : Option Int :=
  let (negative, cs) : Bool × List Char := match cs with
    | '-' :: r => (true, r)
    | '+' :: r => (false, r)
    | r => (false, r)
  (digits? 10 cs).map fun ds =>
    let n : Int := ofDigits 10 ds
    if negative then -n else n

/-- A float without its sign. Floats that are too large are refused. -/
def magnitude? (cs : List Char) : Option Float :=
  if cs = ['i', 'n', 'f'] then some (1.0 / 0.0)
  else if cs = ['n', 'a', 'n'] then some (0.0 / 0.0)
  else do
    let mantissa := cs.takeWhile fun c => c ≠ 'e' && c ≠ 'E'
    let whole ← plainDigits? (mantissa.takeWhile (· ≠ '.'))
    let places ← match mantissa.dropWhile (· ≠ '.') with
      | [] => some []
      | _ :: r => digits? 10 r
    let e ← match cs.drop mantissa.length with
      | [] => some 0
      | _ :: r => exponent? r
    let x := Decimal.nearest (whole ++ places) (e - places.length)
    if x.isFinite then some x else none

def number? (cs : List Char) : Option Value :=
  let (negative, signed, cs) : Bool × Bool × List Char := match cs with
    | '-' :: r => (true, true, r)
    | '+' :: r => (false, true, r)
    | r => (false, false, r)
  match integer? negative signed cs with
  | some v => some v
  | none => (magnitude? cs).map fun x => .float (if negative then -x else x)

/-- A number of a fixed count of digits, and what follows it. -/
def fixed? (count : Nat) (cs : List Char) : Option (Nat × List Char) :=
  let ds := cs.take count
  if ds.length = count && ds.all Char.isDigit then some (ofDigits 10 ds, cs.drop count) else none

def skip? (c : Char) : List Char → Option (List Char)
  | d :: r => if c = d then some r else none
  | [] => none

def daysIn (year month : Nat) : Nat :=
  if month = 2 then
    (if year % 4 = 0 && (year % 100 ≠ 0 || year % 400 = 0) then 29 else 28)
  else if [4, 6, 9, 11].contains month then 30
  else 31

/-- What follows a date. -/
def date? (cs : List Char) : Option (List Char) := do
  let (y, r) ← fixed? 4 cs
  let r ← skip? '-' r
  let (m, r) ← fixed? 2 r
  let r ← skip? '-' r
  let (d, r) ← fixed? 2 r
  if 1 ≤ m && m ≤ 12 && 1 ≤ d && d ≤ daysIn y m then some r else none

/-- What follows hours and minutes. -/
def clock? (cs : List Char) : Option (List Char) := do
  let (h, r) ← fixed? 2 cs
  let r ← skip? ':' r
  let (m, r) ← fixed? 2 r
  if h ≤ 23 && m ≤ 59 then some r else none

/-- What follows a time of day. Seconds may be left out. -/
def time? (cs : List Char) : Option (List Char) := do
  let r ← clock? cs
  match r with
  | ':' :: r => do
    let (s, r) ← fixed? 2 r
    if 60 < s then none
    match r with
    | '.' :: r =>
      let ds := r.takeWhile Char.isDigit
      if ds.isEmpty then none else some (r.drop ds.length)
    | r => some r
  | r => some r

/-- Whether a text is an offset from universal time, or nothing. -/
def isOffset (cs : List Char) : Bool :=
  match cs with
  | [] => true
  | c :: r =>
    if c = 'Z' || c = 'z' then r.isEmpty
    else (c == '+' || c == '-') && clock? r == some []

def isDateTime (cs : List Char) : Bool :=
  match date? cs with
  | some [] => true
  | some (c :: r) =>
    (c == 'T' || c == 't' || c == ' ') && (match time? r with
      | some s => isOffset s
      | none => false)
  | none => time? cs == some []

/-- The value of a bare scalar. A date or time stands as an object of its own kind. -/
def scalar? (cs : List Char) : Option Value :=
  if cs = "true".toList then some (.bool true)
  else if cs = "false".toList then some (.bool false)
  else if isDateTime cs then some (.object [("datetime", .text (String.ofList cs))])
  else number? cs

end AddonAtlas.Toml
