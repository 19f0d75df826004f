/-!
Switches of a command line.

A long switch is written `--name`, its value after an equals sign or in the next word. Short
switches may share one word; a value follows in the same word or in the next one. A word that begins
with a hyphen is never the next word's value, a single hyphen excepted.
-/

namespace AddonAtlas.CommandLine

/-- How reading a command line ends without a command. -/
inductive Stop
  | help
  | version
  | misuse
  deriving DecidableEq, Repr

/-- What a switch does or takes. -/
inductive Kind
  | help
  | version
  | flag
  | text
  /-- A text that is not empty. -/
  | path
  | choice (names : List String)
  deriving DecidableEq, Repr

namespace Kind

def takesValue : Kind → Bool
  | .help | .version | .flag => false
  | .text | .path | .choice _ => true

def accepts : Kind → String → Bool
  | .path, v => !v.isEmpty
  | .choice names, v => names.contains v
  | _, _ => true

end Kind

structure Switch where
  name : String
  short : Option Char := none
  kind : Kind := .flag
  repeatable : Bool := false
  /-- The name of a switch that has to be used along with this one. -/
  needs : Option String := none
  deriving DecidableEq, Repr

/-- The switches used, with their values, in order. -/
abbrev Uses := List (String × String)

namespace Uses

def has (u : Uses) (name : String) : Bool := u.any fun e => e.1 == name

def valuesOf (u : Uses) (name : String) : List String :=
  (u.filter fun e => e.1 == name).map (·.2)

def value? (u : Uses) (name : String) : Option String := (u.valuesOf name).head?

/-- Add the use of a switch. -/
def note (u : Uses) (s : Switch) (value : String) : Except Stop Uses :=
  match s.kind with
  | .help => .error .help
  | .version => .error .version
  | k =>
    if !k.accepts value || (u.has s.name && !s.repeatable) then .error .misuse
    else .ok (u ++ [(s.name, value)])

end Uses

/-- What a word of a command line looks like. -/
inductive Word
  | plain
  /-- Two hyphens: no switch follows. -/
  | ending
  | long (name : String) (value : Option String)
  | short (letters : List Char)
  deriving DecidableEq, Repr

def Word.ofText (w : String) : Word :=
  match w.toList with
  | ['-', '-'] => .ending
  | '-' :: '-' :: cs =>
    let name := cs.takeWhile (· ≠ '=')
    let value := if cs.contains '=' then some (String.ofList (cs.drop (name.length + 1))) else none
    .long (String.ofList name) value
  | '-' :: c :: cs => .short (c :: cs)
  | _ => .plain

/-- The uses so far, and the switch whose value is to come. -/
abbrev Progress := Uses × Option Switch

/-- Read a long switch. -/
def readLong (switches : List Switch) (u : Uses) (name : String) (value : Option String) :
    Except Stop Progress :=
  match switches.find? fun s => s.name == name, value with
  | none, _ => .error .misuse
  | some s, some v =>
    if s.kind.takesValue then do pure (← u.note s v, none) else .error .misuse
  | some s, none => if s.kind.takesValue then pure (u, some s) else do pure (← u.note s "", none)

/-- Read the short switches of a word. -/
def readShort (switches : List Switch) (u : Uses) : List Char → Except Stop Progress
  | [] => .ok (u, none)
  | c :: cs => match switches.find? fun s => s.short == some c with
    | none => .error .misuse
    | some s =>
      if s.kind.takesValue then
        match cs with
        | [] => .ok (u, some s)
        | '=' :: v | v => do pure (← u.note s (String.ofList v), none)
      else do readShort switches (← u.note s "") cs

/-- Read switches up to the first word that is none; that word and those after it are left. -/
def readFrom (switches : List Switch) : Progress → List String → Except Stop (Uses × List String)
  | (u, none), [] => .ok (u, [])
  | (_, some _), [] => .error .misuse
  | (u, some s), w :: r =>
    if Word.ofText w = .plain then do readFrom switches (← u.note s w, none) r else .error .misuse
  | (u, none), w :: r => match Word.ofText w with
    | .plain => .ok (u, w :: r)
    | .ending => if r.isEmpty then .ok (u, []) else .error .misuse
    | .long name value => do readFrom switches (← readLong switches u name value) r
    | .short letters => do readFrom switches (← readShort switches u letters) r

/-- Whether every switch comes with the one it needs. -/
def complete (switches : List Switch) (u : Uses) : Bool :=
  switches.all fun s => !u.has s.name || s.needs.all u.has

/-- Read a command line that consists of switches. -/
def readSwitches (switches : List Switch) (words : List String) : Except Stop Uses := do
  let (u, rest) ← readFrom switches ([], none) words
  if rest.isEmpty && complete switches u then pure u else .error .misuse

end AddonAtlas.CommandLine
