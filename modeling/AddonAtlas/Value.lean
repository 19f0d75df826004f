import AddonAtlas.Ordered.Set

/-!
Plain values: what manifests, literals and saved data are made of.
-/

namespace AddonAtlas

/-- A plain value. The fields of an object stand in the order of their keys wherever a value is
built by `Value.object` or `Value.canonical`. -/
inductive Value
  | null
  | bool (b : Bool)
  | int (n : Int)
  | float (x : Float)
  | text (s : String)
  | list (items : List Value)
  | object (fields : List (String × Value))
  deriving Inhabited

namespace Value

def ofMap (m : NameMap Value) : Value := .object m.entries

def ofTexts (l : List String) : Value := .list (l.map .text)

def ofText? (s : Option String) : Value := (s.map .text).getD .null

/-- Put a field at its place among sorted ones. -/
def putField (k : String) (v : Value) (fields : List (String × Value)) : List (String × Value) :=
  OrdMap.put k v fields

/-- The fields of an object as a map; of equal keys the last one counts. -/
def fieldMap (fields : List (String × Value)) : NameMap Value := OrdMap.ofList fields

mutual

/-- The same value with the fields of all objects sorted and without repeats. -/
def canonical : Value → Value
  | .list items => .list (canonicalItems items)
  | .object fields => ofMap (fieldMap (canonicalFields fields))
  | v => v

def canonicalItems : List Value → List Value
  | [] => []
  | v :: r => canonical v :: canonicalItems r

def canonicalFields : List (String × Value) → List (String × Value)
  | [] => []
  | (k, v) :: r => (k, canonical v) :: canonicalFields r

end

mutual

/-- Whether all floats in a value are finite. -/
def isFinite : Value → Bool
  | .float x => x.isFinite
  | .list items => allFinite items
  | .object fields => allFieldsFinite fields
  | _ => true

def allFinite : List Value → Bool
  | [] => true
  | v :: r => isFinite v && allFinite r

def allFieldsFinite : List (String × Value) → Bool
  | [] => true
  | (_, v) :: r => isFinite v && allFieldsFinite r

end

def text? : Value → Option String
  | .text s => some s
  | _ => none

end Value

end AddonAtlas
