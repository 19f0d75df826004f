import AddonAtlas.Value

/-!
Tables of TOML while they are filled.

A table is opened by its own heading, by the heading of a table below it, or by a dotted key. Each
heading opens its table once, and dotted keys extend only tables that dotted keys opened.
-/

namespace AddonAtlas.Toml

/-- What opened a table. -/
inductive Origin
  /-- Its own heading. -/
  | written
  /-- The heading of a table below it. -/
  | implied
  /-- A dotted key. -/
  | dotted
  deriving DecidableEq, Repr

/-- What a key of a table holds. -/
inductive Item
  | value (v : Value)
  | table (origin : Origin) (fields : List (String × Item))
  /-- Tables with one heading, of which the last one can be extended. -/
  | tables (closed : List Value) (last : List (String × Item))
  deriving Inhabited

/-- The fields of a table, in the order of their first mention. -/
abbrev Fields := List (String × Item)

mutual

def Item.toValue : Item → Value
  | .value v => v
  | .table _ fields => .object (fieldsValue fields)
  | .tables closed last => .list (closed ++ [.object (fieldsValue last)])

def fieldsValue : List (String × Item) → List (String × Value)
  | [] => []
  | (k, i) :: r => (k, i.toValue) :: fieldsValue r

end

namespace Fields

def get? (fs : Fields) (k : String) : Option Item := fs.lookup k

/-- Put an item in the place of the one at a key, or behind all others. -/
def set (k : String) (i : Item) : Fields → Fields
  | [] => [(k, i)]
  | (j, x) :: r => if j = k then (k, i) :: r else (j, x) :: set k i r

/-- Change the table that a chain of keys leads to, opening the tables on the way. -/
def within (opener : Origin) : List String → (Fields → Option Fields) → Fields → Option Fields
  | [], f, fs => f fs
  | k :: path, f, fs =>
    match fs.get? k with
    | none => (within opener path f []).map fun sub => fs.set k (.table opener sub)
    | some (.value _) => none
    | some (.table o sub) =>
      if opener = .dotted && (o = .written || (path.isEmpty && o ≠ .dotted)) then none
      else (within opener path f sub).map fun sub => fs.set k (.table o sub)
    | some (.tables closed last) =>
      if opener = .dotted && path.isEmpty then none
      else (within opener path f last).map fun last => fs.set k (.tables closed last)

/-- Add a value under a chain of keys, which must be new. -/
def add (fs : Fields) (path : List String) (v : Value) : Option Fields :=
  match path.getLast? with
  | none => none
  | some k =>
    within .dotted path.dropLast (fun sub =>
      if (sub.get? k).isSome then none else some (sub.set k (.value v))) fs

def addAll (fs : Fields) (l : List (List String × Value)) : Option Fields :=
  l.foldlM (fun fs e => fs.add e.1 e.2) fs

/-- Open the table of a heading and fill it. -/
def openTable (fs : Fields) (path : List String) (l : List (List String × Value)) :
    Option Fields :=
  match path.getLast? with
  | none => none
  | some k => within .implied path.dropLast (fun sub => match sub.get? k with
      | none => (addAll [] l).map fun t => sub.set k (.table .written t)
      | some (.table .implied t) => (addAll t l).map fun t => sub.set k (.table .written t)
      | _ => none) fs

/-- Add a table under a heading for several tables, and fill it. -/
def openNext (fs : Fields) (path : List String) (l : List (List String × Value)) : Option Fields :=
  match path.getLast? with
  | none => none
  | some k => within .implied path.dropLast (fun sub => match sub.get? k with
      | none => (addAll [] l).map fun t => sub.set k (.tables [] t)
      | some (.tables closed last) => (addAll [] l).map fun t =>
        sub.set k (.tables (closed ++ [.object (fieldsValue last)]) t)
      | _ => none) fs

end Fields

end AddonAtlas.Toml
