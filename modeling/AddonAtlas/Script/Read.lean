import AddonAtlas.Entity.ScriptModule
import AddonAtlas.Script.ModulePath
import AddonAtlas.Text.Lines

/-!
What a script declares itself to be: a named definition, or a module marked by a tag.

A definition gives the script its alias and the modules it requires. A tagged script may name an
alias and switch its default off; it also requires what it imports by name.
-/

namespace AddonAtlas.Script

open AddonAtlas.Text

/-- A reader of something at the front of a text; gives what it read and what follows it. -/
abbrev Front (α : Type) := List Char → Option (α × List Char)

/-- What follows a word at the front of a text. -/
def word? (w : String) (cs : List Char) : Option (List Char) :=
  if w.toList.isPrefixOf cs then some (cs.drop w.length) else none

/-- What follows some blank space at the front of a text. -/
def gap? (cs : List Char) : Option (List Char) :=
  match cs with
  | c :: r => if isBlank c then some (trimStart r) else none
  | [] => none

def isQuote (c : Char) : Bool := c == '"' || c == '\'' || c == '\x60'

/-- A text between two quotes of one kind, without quotes of any kind in it. -/
def quoted? : Front String
  | [] => none
  | q :: r =>
    let inner := r.takeWhile fun c => !isQuote c
    if isQuote q && (r.drop inner.length).head? == some q then
      some (String.ofList inner, r.drop (inner.length + 1))
    else none

/-- Words at the front of a text, blank space being free between them. -/
def words? : List String → List Char → Option (List Char)
  | [], cs => some cs
  | w :: ws, cs => (word? w (trimStart cs)).bind (words? ws)

/-- The name that a definition gives a script. -/
def definition? : Front String := fun cs => do
  let r ← word? "odoo" cs
  let r ← words? [".", "define", "("] r
  quoted? (trimStart r)

/-- A module that a call requires. -/
def requirement? : Front String := fun cs => do
  let r ← word? "require" cs
  let r ← words? ["("] r
  let (name, r) ← quoted? (trimStart r)
  let r ← words? [")"] r
  some (name, r)

/-- Everything that a reader finds in a text, from left to right and without overlaps. -/
def findAll (f : Front α) : (fuel : Nat) → List Char → List α
  | 0, _ => []
  | _, [] => []
  | n + 1, c :: r => match f (c :: r) with
    | some (a, s) => a :: findAll f n s
    | none => findAll f n r

def definitions (cs : List Char) : List String := findAll definition? cs.length cs

def requirements (cs : List Char) : List String := findAll requirement? cs.length cs

/-- What follows the names between the braces of an import. Names are words; commas may stand behind
them, one at a time. -/
def namesEnd? : (named comma : Bool) → List Char → Option (List Char)
  | _, _, [] => none
  | named, comma, c :: r =>
    if c = '\x7d' then (if named then some r else none)
    else if isBlank c then namesEnd? named comma r
    else if isWord c then namesEnd? true true r
    else if c = ',' && comma then namesEnd? named false r
    else none

/-- The module that an import of names takes them from. -/
def namedImport? : Front String := fun cs => do
  let r ← words? ["import"] cs
  let r ← gap? r
  let r ← word? "\x7b" r
  let r ← namesEnd? false false r
  let r ← words? ["from"] r
  let (name, r) ← quoted? (trimStart r)
  if name.isEmpty then none else some (name, r)

/-- The modules that a text imports names from. An import begins a line. -/
def namedImports : (fuel : Nat) → (lineStart : Bool) → List Char → List String
  | 0, _, _ => []
  | _, _, [] => []
  | n + 1, lineStart, c :: r =>
    match if lineStart then namedImport? (c :: r) else none with
    | some (a, s) => a :: namedImports n false s
    | none => namedImports n (c == '\n') r

/-- The tag of a module. -/
def moduleTag : String := "@odoo-module"

/-- What follows the last tag on the first line of a text. -/
def lastTag? : List Char → Option (List Char)
  | [] => none
  | c :: r =>
    if c = '\n' then none
    else match lastTag? r with
      | some s => some s
      | none => word? moduleTag (c :: r)

/-- What follows the tag of a comment, seen from behind the opening of the comment: a tag that
begins the next written line counts before one on the same line. -/
def tagAfter? (cs : List Char) : Option (List Char) :=
  (word? moduleTag (trimStart (cs.dropWhile (· ≠ '\n')))).or (lastTag? cs)

/-- What follows the tag of the first comment that has one. -/
def tagged? : List Char → Option (List Char)
  | [] => none
  | '/' :: c :: r =>
    if c = '*' || c = '/' then match tagAfter? r with
      | some s => some s
      | none => tagged? (c :: r)
    else tagged? (c :: r)
  | _ :: r => tagged? r

/-- An alias given behind a tag. -/
def tagAlias? : Front String := fun cs => do
  let r ← gap? cs
  let r ← word? "alias=" r
  let name := r.takeWhile fun c => isWord c || c == '.'
  if name.isEmpty then none else some (String.ofList name, r.drop name.length)

/-- Whether the default is switched off. -/
def isOff (cs : List Char) : Bool :=
  match (gap? cs).bind (word? "default=") with
  | some r => ["False", "false", "0"].any fun w => w.toList.isPrefixOf r
  | none => false

/-- Read a script at an address. -/
def read (address text : String) : ScriptModule :=
  let cs := text.toList
  let plain : ScriptModule := { name := modulePath address }
  match definitions cs with
  | d :: _ => { plain with otherName := some d, requires := .ofList (requirements cs) }
  | [] => match tagged? cs with
    | none => plain
    | some r =>
      let (given, r) := match tagAlias? r with
        | some (a, s) => (some a, s)
        | none => (none, r)
      { plain with
        otherName := given
        default := !isOff r
        requires := .ofList (namedImports cs.length true cs ++ requirements cs) }

end AddonAtlas.Script
