import AddonAtlas.Package.Basic
import AddonAtlas.Text.Lines

/-!
Reports of a line counter: rows with a language and four counts, of which the last one is the
number of code lines.
-/

namespace AddonAtlas.Tool.LineReport

open AddonAtlas.Text

/-- A count behind blank space, and what follows it. -/
def count? (cs : List Char) : Option (List Char × List Char) :=
  let r := trimStart cs
  let ds := r.takeWhile isDigit
  if r.length < cs.length && !ds.isEmpty then some (ds, r.drop ds.length) else none

/-- The last of four counts at the front of a text. -/
def fourth? (cs : List Char) : Option (List Char) := do
  let (_, r) ← count? cs
  let (_, r) ← count? r
  let (_, r) ← count? r
  let (ds, _) ← count? r
  some ds

/-- Split a row at the first place behind which four counts stand. The language holds no colon. -/
def row? : List Char → Option (List Char × List Char)
  | [] => none
  | c :: r => match fourth? (c :: r) with
    | some ds => some ([], ds)
    | none =>
      if c = ':' then none else (row? r).map fun (language, ds) => (c :: language, ds)

/-- A number of lines written in ASCII digits. -/
def lineCount? (ds : List Char) : Option UInt64 :=
  if ds.all Char.isDigit && ofDigits 10 ds < UInt64.size then some (UInt64.ofNat (ofDigits 10 ds))
  else none

/-- The language and the number of code lines of a row. -/
def entry? (line : List Char) : Option (String × UInt64) := do
  let (language, ds) ← row? line
  let language := trim language
  if language.isEmpty then none
  else (lineCount? ds).map fun n => (String.ofList language, n)

/-- The numbers of code lines in a report. Of several rows for one language the last one counts. -/
def counts (report : String) : NameMap UInt64 := .ofList ((lines report.toList).filterMap entry?)

/-- The share of some lines in a total. -/
def share (total n : UInt64) : LanguageShare where
  lines := n
  fraction := if total = 0 then 0.0 else Float.ofNat n.toNat / Float.ofNat total.toNat

/-- The languages of a report with their shares, unless the total is too large for a word: there the
program stops. -/
def read? (report : String) : Option (NameMap LanguageShare) :=
  (Word.sum? (counts report).values).map fun total =>
    (counts report).mapValues fun _ n => share total n

end AddonAtlas.Tool.LineReport
