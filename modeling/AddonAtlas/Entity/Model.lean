import AddonAtlas.Ordered.Set
import AddonAtlas.Metric

/-!
Models and what they declare.

A model may be declared in several pieces, in one package or in many; `Model.merge` puts two
pieces of one name together.
-/

namespace AddonAtlas

/-- A declared field: its type and the text that declares it. -/
structure Field where
  typeTag : String
  sourceText : Option String := none
  deriving DecidableEq, Repr

namespace Field

/-- The link field that a delegation brings with it. -/
def delegation : Field := ⟨"Many2one", none⟩

def text (f : Field) : String := "<Field: " ++ f.typeTag ++ ">"

end Field

/-- A method with its measures. -/
structure Function where
  parameters : List String
  complexity : UInt32 := 0
  lines : UInt32 := 0
  halstead : Float := 0.0

/-- One piece of a model: a class body read for what it declares. -/
structure Model where
  name : Option String := none
  /-- The models it extends. -/
  inherit : NameSet := .empty
  /-- The models it delegates to, by the field that holds the link. -/
  inherits : NameMap String := .empty
  fields : NameMap Field := .empty
  functions : NameMap Function := .empty

namespace Model

/-- A piece without a name that extends exactly one model reopens that model. -/
def adoptInheritName (m : Model) : Model :=
  match m.name, m.inherit.toList with
  | none, [parent] => { m with name := some parent }
  | _, _ => m

/-- Only named pieces are models; the others are auxiliary classes. -/
def isModel (m : Model) : Bool := m.name.isSome

/-- Put another piece of the same model on top. Pieces of other models are left out. -/
def merge (m other : Model) : Model :=
  if m.name = other.name then
    { m with
      inherit := m.inherit.union other.inherit
      inherits := m.inherits.union other.inherits
      fields := m.fields.union other.fields
      functions := m.functions.union other.functions }
  else m

/-- The models it extends, then those it delegates to. -/
def parents (m : Model) : List String := m.inherit.toList ++ m.inherits.values

def complexities (m : Model) : List UInt32 := m.functions.values.map (·.complexity)

/-- The median complexity of its functions. -/
def complexity (m : Model) : Float :=
  Metric.median (m.complexities.map fun c => Float.ofNat c.toNat)

def minComplexity (m : Model) : UInt32 :=
  match m.complexities with
  | [] => 0
  | c :: r => r.foldl min c

def maxComplexity (m : Model) : UInt32 := m.complexities.foldl max 0

/-- The geometric mean of the volumes of its functions. -/
def halstead (m : Model) : Float := Metric.geometricMean (m.functions.values.map (·.halstead))

def text (m : Model) : String := "<Model: " ++ m.name.getD "?" ++ ">"

end Model

end AddonAtlas
