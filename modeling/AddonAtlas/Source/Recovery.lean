import AddonAtlas.Source.Indentation
import AddonAtlas.Entity.Status
import AddonAtlas.Ordered.Set

/-!
Reading a source in spite of its age.

A text is tried as it is, then with the statements of an older revision allowed, then as a
converter leaves it, and last with its indentation mended. What the grammar is, and what the
converter does, are parameters; so is where a parser that goes on behind a syntax error finds the
first fault of a text.
-/

namespace AddonAtlas.Source

/-- A place of a text that does not fit a grammar, and the kind of what stands or is missing there.
-/
structure Fault where
  /-- Counted from one. -/
  line : Nat
  /-- Counted from one. -/
  column : Nat
  kind : String
  deriving DecidableEq, Repr

/-- The fault of a text in which none is found. -/
def Fault.unknown : Fault := ⟨1, 1, "ERROR"⟩

/-- A grammar, as far as the recovery depends on it. -/
structure GrammarOf (τ : Type) where
  /-- The tree of a text without syntax errors. -/
  tree? : String → Option τ
  /-- The line of the first statement of an older revision, counted from one. -/
  legacyLine? : τ → Option Nat
  /-- The first fault of a text with syntax errors. -/
  fault? : String → Option Fault := fun _ => none

/-- What a converter leaves behind: whether it ran, and the changed text if it can be read. -/
structure Converted where
  succeeded : Bool
  text? : Option String

inductive Strategy
  | current
  | legacy
  | converted
  | indentFixed
  deriving DecidableEq, Repr

inductive ParseFailure
  /-- The text has a syntax error. -/
  | malformed (f : Fault)
  /-- The text has a statement of an older revision. -/
  | legacy (line : Nat)
  /-- The text cannot be read. -/
  | unreadable
  deriving DecidableEq, Repr

/-- What can be told of a failure beyond its kind. -/
def ParseFailure.message? : ParseFailure → Option String
  | .malformed f => some ("syntax error at line " ++ toString f.line ++ ", column " ++
      toString f.column ++ " (\x60" ++ f.kind ++ "\x60)")
  | .legacy n => some ("legacy statement at line " ++ toString n)
  | .unreadable => none

/-- A source that was read: the tree, the text it belongs to, and how it was reached. -/
structure Parsed (τ : Type) where
  tree : τ
  source : String
  strategy : Strategy
  status : NameSet

/-- The tree of a text, where statements of an older revision must be allowed. -/
def GrammarOf.attempt {τ : Type} (g : GrammarOf τ) (allowLegacy : Bool) (text : String) :
    Except ParseFailure τ :=
  match g.tree? text with
  | none => .error (.malformed ((g.fault? text).getD .unknown))
  | some t => match g.legacyLine? t with
    | some n => if allowLegacy then .ok t else .error (.legacy n)
    | none => .ok t

/-- The last attempt: the text with its indentation mended. -/
def GrammarOf.mended {τ : Type} (g : GrammarOf τ) (status : NameSet) (text? : Option String) :
    Except ParseFailure (Parsed τ) :=
  match text? with
  | none => .error .unreadable
  | some text => do
    let fixed := fixIndentation text
    let status := if fixed = text then status else status.insert Status.indentFix
    let t ← g.attempt false fixed
    pure ⟨t, fixed, .indentFixed, status⟩

/-- Read a text by the first attempt that succeeds. -/
def GrammarOf.recover {τ : Type} (g : GrammarOf τ) (converter : String → Converted)
    (text : String) : Except ParseFailure (Parsed τ) :=
  match g.attempt false text with
  | .ok t => .ok ⟨t, text, .current, .empty⟩
  | .error _ => match g.attempt true text with
    | .ok t => .ok ⟨t, text, .legacy, .singleton (Status.feature 2 7)⟩
    | .error _ =>
      let p := converter text
      if p.succeeded then
        let status : NameSet := .singleton Status.converted
        match p.text? with
        | none => .error .unreadable
        | some converted => match g.attempt false converted with
          | .ok t => .ok ⟨t, converted, .converted, status⟩
          | .error _ => g.mended status (some converted)
      else g.mended .empty p.text?

end AddonAtlas.Source
