import AddonAtlas.Source.Unit
import AddonAtlas.Proofs.Ordered.Gathered
import AddonAtlas.Proofs.Package.Pieces
import AddonAtlas.Proofs.Source.Literals

/-!
What a class body declares.

Two kinds of statements say something: assignments to single names and methods. A model is read off
the list of the assignments and the list of the methods, in which later entries replace earlier ones
of the same name. The one thing that looks back is a class that extends the model of its own name:
it takes the name that it has got so far.
-/

namespace AddonAtlas.Source

open OrdMap

/-! ## Literal mappings -/

namespace Literal

variable {t : Tree} {cs : List Tree}

lemma ordered_entries {fields out : List (String × Value)} (h : entries cs fields = .ok out)
    (hfields : fields.Pairwise fun a b => compare a.1 b.1 = .lt) :
    out.Pairwise fun a b => compare a.1 b.1 = .lt := by
  induction cs generalizing fields with
  | nil =>
    cases h
    exact hfields
  | cons c cs ih =>
    obtain ⟨l, ds⟩ := c
    rw [entries] at h
    split at h
    · exact ih h hfields
    · exact ih h hfields
    · split at h
      · rename_i key value _ _
        cases key with
        | error e => cases h
        | ok k => cases value with
          | error e => cases h
          | ok v => exact ih h (ordered_put (keyText k) v hfields)
      · cases h
    · cases h

lemma return_ne_object {α : Type} {x : Except LiteralError α} {f : α → Value}
    {fields : List (String × Value)} (hf : ∀ a, f a ≠ .object fields) :
    (do return f (← x)) ≠ Except.ok (.object fields) := by
  intro h
  cases x with
  | error e => cases h
  | ok a => exact hf a (Except.ok.inj h)

/-- A literal mapping lists its keys in order, each once. -/
theorem ordered_of_evaluate {fields : List (String × Value)}
    (h : evaluate t = .ok (.object fields)) :
    fields.Pairwise fun a b => compare a.1 b.1 = .lt := by
  have hnumber : ¬ IsNumber (.object fields) := by simp [IsNumber, negate?]
  induction t using Tree.induction with
  | h l cs ih =>
    by_cases hsign : l.kind = .unaryOperator
    · rw [evaluate_unaryOperator hsign] at h
      exact absurd (isNumber_signed_of_bind h) hnumber
    rw [evaluate] at h
    split at h <;> rename_i hk
    case h_1 =>
      cases hentries : entries cs [] with
      | error e =>
        rw [hentries] at h
        cases h
      | ok out =>
        rw [hentries] at h
        cases h
        exact ordered_entries hentries .nil
    case h_7 => exact absurd (isNumber_integer h) hnumber
    case h_8 => exact absurd (isNumber_float h) hnumber
    case h_12 =>
      rw [first_eq] at h
      cases hparts : (cs.filter Tree.isPart) with
      | nil =>
        rw [hparts] at h
        cases h
      | cons e more =>
        rw [hparts] at h
        exact ih e (List.mem_filter.1 (hparts ▸ List.mem_cons_self)).1 h
    case h_13 => exact absurd hk hsign
    case h_9 | h_10 | h_11 | h_14 => cases h
    all_goals exact absurd h (return_ne_object fun _ => Value.noConfusion)

end Literal

/-! ## What single statements say -/

/-- The name and the value of an assignment to a single name. -/
def assignment? (e : Tree) : Option (String × Tree) := do
  guard (e.kind == .assignment)
  let left ← e.child? .left
  let right ← e.child? .right
  guard (left.kind == .identifier)
  some (left.text, right)

/-- The assignments to single names that a statement makes. -/
def assignmentsOf (statement : Tree) : List (String × Tree) :=
  let t := undecorated statement
  if t.kind == .expressionStatement then t.namedChildren.filterMap assignment? else []

/-- The method that a statement defines, with or without decorators. -/
def methodOf? (statement : Tree) : Option (String × Function) := do
  let t := undecorated statement
  guard (t.kind == .functionDefinition)
  let name ← t.child? .name
  some (name.text, functionOf t)

/-- The statements that stand in the body of a definition itself, not in blocks of the body. -/
def bodyStatements (definition : Tree) : List Tree :=
  ((definition.child? .body).map Tree.namedChildren).getD []

/-- The assignments of a class body to single names, in body order. -/
def assignments (definition : Tree) : List (String × Tree) :=
  (bodyStatements definition).flatMap assignmentsOf

/-- The methods of a class body, in body order. -/
def methods (definition : Tree) : List (String × Function) :=
  (bodyStatements definition).filterMap methodOf?

/-! ## What single assignments say -/

/-- The text that a literal writes. -/
def literalText? (value : Tree) : Option String :=
  match Literal.evaluate value with
  | .ok (.text s) => some s
  | _ => none

/-- The texts that a literal writes, by itself or as elements. -/
def literalTexts (value : Tree) : List String :=
  match Literal.evaluate value with
  | .ok (.text s) => [s]
  | .ok (.list vs) => vs.filterMap Value.text?
  | _ => []

/-- The fields and the targets of a mapping from targets to fields. -/
def linksOf (targets : List (String × Value)) : List (String × String) :=
  targets.filterMap fun (target, field) => field.text?.map fun f => (f, target)

/-- The fields and the targets that a literal mapping from targets to fields writes. -/
def literalLinks (value : Tree) : List (String × String) :=
  match Literal.evaluate value with
  | .ok (.object targets) => linksOf targets
  | _ => []

lemma sorted_literalLinks (value : Tree) :
    (literalLinks value).Pairwise fun l l' => l.2 < l'.2 := by
  unfold literalLinks
  split
  · rename_i targets hvalue
    refine (Literal.ordered_of_evaluate hvalue).filterMap _ fun e e' he l hl l' hl' => ?_
    obtain ⟨f, -, rfl⟩ := Option.map_eq_some_iff.1 hl
    obtain ⟨f', -, rfl⟩ := Option.map_eq_some_iff.1 hl'
    exact compareOfLessAndEq_eq_lt.1 he
  · exact .nil

/-- Whether a value is the name of the attribute that holds the name of the model. -/
def isOwnName (value : Tree) : Bool := value.kind == .identifier && value.text == "_name"

/-- The name that an assignment gives to the model. -/
def declaredName? (a : String × Tree) : Option String :=
  if a.1 = "_name" then literalText? a.2 else none

/-- The models that an assignment extends, where the model has the given name so far. -/
def declaredParents (name : Option String) (a : String × Tree) : List String :=
  if a.1 = "_inherit" then if isOwnName a.2 then name.toList else literalTexts a.2 else []

/-- The models that an assignment delegates to, by the fields that hold the links. -/
def declaredLinks (a : String × Tree) : List (String × String) :=
  if a.1 = "_inherits" then literalLinks a.2 else []

/-- The fields that an assignment declares. -/
def declaredFields (a : String × Tree) : List (String × Field) :=
  if a.1 = "_inherits" then (literalLinks a.2).map fun link => (link.1, Field.delegation)
  else if a.1 = "_name" ∨ a.1 = "_inherit" then []
  else ((fieldOf? a.2).map fun f => (a.1, f)).toList

lemma sorted_declaredLinks (a : String × Tree) :
    (declaredLinks a).Pairwise fun l l' => l.2 < l'.2 := by
  unfold declaredLinks
  split
  · exact sorted_literalLinks a.2
  · exact .nil

/-- A value is a call `fields.T(...)`. -/
def IsFieldCall (value : Tree) (type : String) : Prop :=
  value.kind = .call ∧ ∃ function, value.child? .function = some function ∧
    function.kind = .attribute ∧ (∃ receiver, function.child? .object = some receiver ∧
      receiver.kind = .identifier ∧ receiver.text = "fields") ∧
    ∃ t, function.child? .attribute = some t ∧ t.text = type

lemma fieldOf?_eq_some_iff {value : Tree} {f : Field} : fieldOf? value = some f ↔
    IsFieldCall value f.typeTag ∧ f.sourceText = some value.text := by
  obtain ⟨type, text⟩ := f
  unfold fieldOf? IsFieldCall
  constructor
  · intro h
    simp only [Option.bind_eq_bind, Option.bind_eq_some_iff, Option.guard_eq_some',
      Bool.and_eq_true, beq_iff_eq, Option.some.injEq, Field.mk.injEq] at h
    obtain ⟨-, hcall, function, hfunction, -, hattribute, receiver, hreceiver, -, hfields, t, ht,
      htype, htext⟩ := h
    exact ⟨⟨hcall, function, hfunction, hattribute, ⟨receiver, hreceiver, hfields⟩, t, ht, htype⟩,
      htext.symm⟩
  · rintro ⟨⟨hcall, function, hfunction, hattribute, ⟨receiver, hreceiver, hfields⟩, t, ht, rfl⟩,
      rfl⟩
    simp [hcall, hfunction, hattribute, hreceiver, hfields, ht, guard]

variable {m : Model} {a : String × Tree} {as : List (String × Tree)} {ms : List (String × Function)}

lemma addDelegations_eq (m : Model) (targets : List (String × Value)) :
    addDelegations m targets = { m with
      fields := m.fields.insertAll ((linksOf targets).map fun link => (link.1, Field.delegation))
      inherits := m.inherits.insertAll (linksOf targets) } := by
  induction targets generalizing m with
  | nil => rfl
  | cons e targets ih =>
    obtain ⟨target, field⟩ := e
    have hcons : addDelegations m ((target, field) :: targets) =
        addDelegations (addDelegations m [(target, field)]) targets := rfl
    rw [hcons, ih]
    cases field <;> rfl

/-- Add what an assignment says to a model. -/
def assign (m : Model) (a : String × Tree) : Model := declare m (Declaration.of a.1 a.2)

lemma assign_name (m : Model) (value : Tree) :
    assign m ("_name", value) = { m with name := (literalText? value).or m.name } := by
  have hassign : assign m ("_name", value) = declare m (.name value) := rfl
  rw [hassign, declare, literalText?]
  cases Literal.evaluate value with
  | error e => rfl
  | ok v => cases v <;> rfl

lemma assign_inherit (m : Model) (value : Tree) :
    assign m ("_inherit", value) = { m with
      inherit := m.inherit.insertMany (declaredParents m.name ("_inherit", value)) } := by
  have hassign : assign m ("_inherit", value) = declare m (.inherit value) := rfl
  rw [hassign, declare, declaredParents, if_pos rfl, ← isOwnName, literalTexts]
  split
  · obtain ⟨name⟩ := m
    cases name <;> rfl
  · cases Literal.evaluate value with
    | error e => rfl
    | ok v => cases v <;> rfl

lemma assign_inherits (m : Model) (value : Tree) :
    assign m ("_inherits", value) = { m with
      fields := m.fields.insertAll ((literalLinks value).map fun link => (link.1, Field.delegation))
      inherits := m.inherits.insertAll (literalLinks value) } := by
  have hassign : assign m ("_inherits", value) = declare m (.inherits value) := rfl
  rw [hassign, declare, literalLinks]
  cases Literal.evaluate value with
  | error e => rfl
  | ok v => cases v with
    | object targets => exact addDelegations_eq m targets
    | _ => rfl

lemma assign_of_ne (m : Model) {x : String} (value : Tree) (hname : x ≠ "_name")
    (hinherit : x ≠ "_inherit") (hinherits : x ≠ "_inherits") :
    assign m (x, value) =
      { m with fields := m.fields.insertAll ((fieldOf? value).map fun f => (x, f)).toList } := by
  rw [assign, Declaration.of, if_neg hname, if_neg hinherit, if_neg hinherits]
  cases fieldOf? value <;> rfl

/-- All that an assignment does. -/
lemma assign_eq (m : Model) (a : String × Tree) : assign m a = { m with
    name := (declaredName? a).or m.name
    inherit := m.inherit.insertMany (declaredParents m.name a)
    inherits := m.inherits.insertAll (declaredLinks a)
    fields := m.fields.insertAll (declaredFields a) } := by
  obtain ⟨x, value⟩ := a
  by_cases hname : x = "_name"
  · subst hname
    exact assign_name m value
  by_cases hinherit : x = "_inherit"
  · subst hinherit
    exact assign_inherit m value
  by_cases hinherits : x = "_inherits"
  · subst hinherits
    exact assign_inherits m value
  · rw [assign_of_ne m value hname hinherit hinherits, declaredName?, declaredParents,
      declaredLinks, declaredFields]
    simp only [hname, hinherit, hinherits, or_self, if_false]
    rfl

/-- Whether an assignment says something. -/
def tells (a : String × Tree) : Bool :=
  (declaredName? a).isSome || !(declaredFields a).isEmpty ||
    a.1 == "_inherit" && (isOwnName a.2 || !(literalTexts a.2).isEmpty)

/-- Whether a statement says something. -/
def contributes (statement : Tree) : Bool :=
  (methodOf? statement).isSome || (assignmentsOf statement).any tells

lemma assign_of_not_tells (h : tells a = false) (m : Model) : assign m a = m := by
  obtain ⟨x, value⟩ := a
  simp only [tells, Bool.or_eq_false_iff, Option.isSome_eq_false_iff, Option.isNone_iff_eq_none,
    Bool.not_eq_false', List.isEmpty_iff, Bool.and_eq_false_imp, beq_iff_eq] at h
  obtain ⟨⟨hname, hfields⟩, hinherit⟩ := h
  have hparents : declaredParents m.name (x, value) = [] := by
    rw [declaredParents]
    split
    · rename_i hx
      rw [if_neg (by simp [(hinherit hx).1]), (hinherit hx).2]
    · rfl
  have hlinks : declaredLinks (x, value) = [] := by
    rw [declaredLinks]
    split
    · rename_i hx
      rw [declaredFields, if_pos hx] at hfields
      exact List.map_eq_nil_iff.1 hfields
    · rfl
  rw [assign_eq, hname, hfields, hparents, hlinks]
  rfl

/-! ## What a class body says -/

lemma foldl_declareAssignment (m : Model) (es : List Tree) :
    (es.filter fun e => e.kind == .assignment).foldl declareAssignment m =
      (es.filterMap assignment?).foldl assign m := by
  rw [List.foldl_filter, List.foldl_filterMap]
  congr 1
  funext m e
  unfold assignment? declareAssignment
  cases e.kind == .assignment with
  | false => rfl
  | true =>
    cases e.child? .left with
    | none => rfl
    | some left => cases e.child? .right with
      | none => rfl
      | some right => by_cases hk : left.kind = .identifier <;> simp [guard, hk, assign]

lemma functions_foldl_assign (m : Model) (as : List (String × Tree)) :
    (as.foldl assign m).functions = m.functions := by
  induction as generalizing m with
  | nil => rfl
  | cons a as ih => rw [List.foldl_cons, ih, assign_eq]

lemma assignmentsOf_of_kind_ne {statement : Tree}
    (h : (undecorated statement).kind ≠ .expressionStatement) : assignmentsOf statement = [] := by
  simp [assignmentsOf, h]

lemma methodOf?_of_kind_ne {statement : Tree}
    (h : (undecorated statement).kind ≠ .functionDefinition) : methodOf? statement = none := by
  simp [methodOf?, guard, h]

/-- All that a statement does. -/
lemma declareStatement_eq (m : Model) (statement : Tree) :
    declareStatement m statement = { (assignmentsOf statement).foldl assign m with
      functions := m.functions.insertAll (methodOf? statement).toList } := by
  unfold declareStatement
  dsimp only
  split
  · rename_i hk
    rw [methodOf?_of_kind_ne (by simp [hk]), foldl_declareAssignment, assignmentsOf,
      if_pos (beq_iff_eq.2 hk), ← functions_foldl_assign m]
    rfl
  · rename_i hk
    rw [assignmentsOf_of_kind_ne (by simp [hk]), methodOf?]
    cases (undecorated statement).child? .name <;> simp [hk, guard, insertAll]
  · rename_i hexpression hfunction
    rw [assignmentsOf_of_kind_ne hexpression, methodOf?_of_kind_ne hfunction]
    rfl

lemma declareStatement_of_not_contributes {statement : Tree} (h : contributes statement = false)
    (m : Model) : declareStatement m statement = m := by
  simp only [contributes, Bool.or_eq_false_iff, Option.isSome_eq_false_iff,
    Option.isNone_iff_eq_none, List.any_eq_false, Bool.not_eq_true] at h
  have hassign : (assignmentsOf statement).foldl assign m = m :=
    List.foldlRecOn (motive := (· = m)) (assignmentsOf statement) assign rfl fun m' hm' a ha =>
      (assign_of_not_tells (h.2 a ha) m').trans hm'
  rw [declareStatement_eq, h.1, hassign]
  rfl

/-- The name that assignments give to a model; the last of them counts. -/
def lastName (as : List (String × Tree)) : Option String := (as.filterMap declaredName?).getLast?

/-- Some assignment extends a model. An assignment that refers to the name of the class means the
name given by the assignments before it. -/
def Extends (as : List (String × Tree)) (parent : String) : Prop :=
  ∃ before a after, as = before ++ a :: after ∧ parent ∈ declaredParents (lastName before) a

/-- A model holds what a list of assignments and a list of methods say. -/
structure ReadOff (m : Model) (as : List (String × Tree))
    (ms : List (String × Function)) : Prop where
  name : m.name = lastName as
  inherit : ∀ parent, parent ∈ m.inherit.toList ↔ Extends as parent
  inherits : m.inherits = ofList (as.flatMap declaredLinks)
  fields : m.fields = ofList (as.flatMap declaredFields)
  functions : m.functions = ofList ms

lemma lastName_concat : lastName (as ++ [a]) = (declaredName? a).or (lastName as) := by
  rw [lastName, List.filterMap_append, List.getLast?_append, lastName]
  cases h : declaredName? a <;> simp [h]

lemma extends_concat {parent : String} : Extends (as ++ [a]) parent ↔
    Extends as parent ∨ parent ∈ declaredParents (lastName as) a := by
  constructor
  · rintro ⟨before, b, after, h, hparent⟩
    induction after using List.reverseRecOn with
    | nil =>
      -- the extending assignment is the new one
      obtain ⟨rfl, hb⟩ := List.append_inj' h rfl
      obtain rfl := List.singleton_inj.1 hb
      exact .inr hparent
    | append_singleton after c _ =>
      rw [← List.cons_append, ← List.append_assoc] at h
      exact .inl ⟨before, b, after, (List.append_inj' h rfl).1, hparent⟩
  · rintro (⟨before, b, after, rfl, hparent⟩ | hparent)
    · exact ⟨before, b, after ++ [a], by simp, hparent⟩
    · exact ⟨as, a, [], rfl, hparent⟩

lemma ReadOff.nil : ReadOff {} [] [] where
  name := rfl
  inherit parent := by
    refine iff_of_false List.not_mem_nil ?_
    rintro ⟨before, a, after, h, -⟩
    simp at h
  inherits := rfl
  fields := rfl
  functions := rfl

lemma ReadOff.assign (h : ReadOff m as ms) : ReadOff (assign m a) (as ++ [a]) ms := by
  rw [assign_eq]
  constructor
  case name => rw [lastName_concat, h.name]
  case inherit =>
    intro parent
    rw [OrdSet.mem_insertMany, extends_concat, h.inherit, h.name]
  case inherits => rw [List.flatMap_append, ofList_append, h.inherits, List.flatMap_singleton]
  case fields => rw [List.flatMap_append, ofList_append, h.fields, List.flatMap_singleton]
  case functions => exact h.functions

lemma ReadOff.foldl_assign (h : ReadOff m as ms) (as' : List (String × Tree)) :
    ReadOff (as'.foldl Source.assign m) (as ++ as') ms := by
  induction as' using List.reverseRecOn with
  | nil => simpa using h
  | append_singleton as' a ih =>
    rw [List.foldl_concat, ← List.append_assoc]
    exact ih.assign

lemma ReadOff.declareStatement (h : ReadOff m as ms) (statement : Tree) :
    ReadOff (declareStatement m statement) (as ++ assignmentsOf statement)
      (ms ++ (methodOf? statement).toList) := by
  rw [declareStatement_eq]
  have hassign := h.foldl_assign (assignmentsOf statement)
  exact { hassign with functions := by rw [ofList_append, h.functions] }

/-- Statement after statement, a body is read for its assignments and its methods. -/
lemma readOff_foldl_declareStatement (body : List Tree) :
    ReadOff (body.foldl Source.declareStatement {}) (body.flatMap assignmentsOf)
      (body.filterMap methodOf?) := by
  induction body using List.reverseRecOn with
  | nil => exact .nil
  | append_singleton body statement ih =>
    rw [List.foldl_concat, List.flatMap_append, List.flatMap_singleton, List.filterMap_append,
      List.filterMap_eq_flatMap_toList (l := [statement]), List.flatMap_singleton]
    exact ih.declareStatement statement

/-- What contributes nothing can be left out of a body. -/
lemma foldl_filter_contributes (m : Model) (body : List Tree) :
    (body.filter contributes).foldl declareStatement m = body.foldl declareStatement m := by
  rw [List.foldl_filter]
  congr 1
  funext m statement
  split
  · rfl
  · rename_i h
    exact (declareStatement_of_not_contributes (Bool.not_eq_true _ ▸ h) m).symm

/-! ## What a class declares -/

lemma classModel_eq (definition : Tree) : classModel definition =
    ((bodyStatements definition).foldl declareStatement {}).adoptInheritName := by
  unfold classModel bodyStatements
  cases definition.child? .body <;> rfl

lemma exists_readOff (definition : Tree) : ∃ m, classModel definition = m.adoptInheritName ∧
    ReadOff m (assignments definition) (methods definition) :=
  ⟨_, classModel_eq definition, readOff_foldl_declareStatement (bodyStatements definition)⟩

lemma fields_classModel (definition : Tree) (x : String) :
    (classModel definition).fields.get? x =
      (valuesAt x ((assignments definition).flatMap declaredFields)).getLast? := by
  obtain ⟨m, hm, h⟩ := exists_readOff definition
  rw [hm, Model.fields_adoptInheritName, h.fields, get?_ofList_eq_getLast?]

lemma inherits_classModel (definition : Tree) (x : String) :
    (classModel definition).inherits.get? x =
      (valuesAt x ((assignments definition).flatMap declaredLinks)).getLast? := by
  obtain ⟨m, hm, h⟩ := exists_readOff definition
  rw [hm, Model.inherits_adoptInheritName, h.inherits, get?_ofList_eq_getLast?]

lemma functions_classModel (definition : Tree) (x : String) :
    (classModel definition).functions.get? x = (valuesAt x (methods definition)).getLast? := by
  obtain ⟨m, hm, h⟩ := exists_readOff definition
  rw [hm, Model.functions_adoptInheritName, h.functions, get?_ofList_eq_getLast?]

lemma mem_inherit_classModel (definition : Tree) (parent : String) :
    parent ∈ (classModel definition).inherit.toList ↔ Extends (assignments definition) parent := by
  obtain ⟨m, hm, h⟩ := exists_readOff definition
  rw [hm, Model.inherit_adoptInheritName, h.inherit]

lemma name_classModel (definition : Tree) (n : String) : (classModel definition).name = some n ↔
    lastName (assignments definition) = some n ∨ lastName (assignments definition) = none ∧
      (classModel definition).inherit.toList = [n] := by
  obtain ⟨m, hm, h⟩ := exists_readOff definition
  rw [hm, Model.name_adoptInheritName_eq_some_iff, Model.inherit_adoptInheritName, h.name]

lemma kind_of_contributes {statement : Tree} (h : contributes statement = true) :
    (undecorated statement).kind = .functionDefinition ∨
      (undecorated statement).kind = .expressionStatement := by
  by_contra hkind
  obtain ⟨hfunction, hexpression⟩ := not_or.1 hkind
  rw [contributes, methodOf?_of_kind_ne hfunction, assignmentsOf_of_kind_ne hexpression] at h
  simp at h

/-- Only what contributes to a model decides it. -/
lemma classModel_congr {definition definition' : Tree}
    (h : (bodyStatements definition).filter contributes =
      (bodyStatements definition').filter contributes) :
    classModel definition = classModel definition' := by
  rw [classModel_eq, classModel_eq, ← foldl_filter_contributes, h, foldl_filter_contributes]

/-- A class declares fields, delegations and methods, of which the last one of each name counts;
the models that it extends; and its name, for which a single extended model can stand in. Calls
`fields.T` and the entries of literal mappings make fields, the entries in the order of their
targets. Among the statements of the body only methods and assignments contribute, and what does
not contribute makes no difference. -/
theorem classModel_declares (definition : Tree) :
    (∀ x, (classModel definition).fields.get? x =
      (valuesAt x ((assignments definition).flatMap declaredFields)).getLast?) ∧
    (∀ x, (classModel definition).inherits.get? x =
      (valuesAt x ((assignments definition).flatMap declaredLinks)).getLast?) ∧
    (∀ x, (classModel definition).functions.get? x =
      (valuesAt x (methods definition)).getLast?) ∧
    (∀ parent, parent ∈ (classModel definition).inherit.toList ↔
      Extends (assignments definition) parent) ∧
    (∀ n, (classModel definition).name = some n ↔ lastName (assignments definition) = some n ∨
      lastName (assignments definition) = none ∧ (classModel definition).inherit.toList = [n]) ∧
    (∀ value f, fieldOf? value = some f ↔
      IsFieldCall value f.typeTag ∧ f.sourceText = some value.text) ∧
    (∀ a ∈ assignments definition, (declaredLinks a).Pairwise fun l l' => l.2 < l'.2) ∧
    (∀ statement ∈ bodyStatements definition, contributes statement = true →
      (undecorated statement).kind = .functionDefinition ∨
        (undecorated statement).kind = .expressionStatement) ∧
    ∀ definition', (bodyStatements definition').filter contributes =
      (bodyStatements definition).filter contributes →
        classModel definition' = classModel definition :=
  ⟨fields_classModel definition, inherits_classModel definition, functions_classModel definition,
    mem_inherit_classModel definition, name_classModel definition, fun _ _ => fieldOf?_eq_some_iff,
    fun a _ => sorted_declaredLinks a, fun _ _ => kind_of_contributes, fun _ => classModel_congr⟩

/-- The attributes that describe a model are no fields of it, whatever is assigned to them. -/
theorem not_forall_get?_of_isFieldCall : ¬ ∀ definition x value type,
    (assignments definition).getLast? = some (x, value) → IsFieldCall value type →
      (classModel definition).fields.get? x = some ⟨type, some value.text⟩ := by
  have hclass : (parse "class A:\n    _name = fields.Char()\n").any (fun root =>
      root.namedChildren.any fun definition =>
        (assignments definition).getLast?.any (fun a => a.1 == "_name" && (fieldOf? a.2).isSome) &&
          ((classModel definition).fields.get? "_name").isNone) = true := by
    decide +kernel
  obtain ⟨root, -, hroot⟩ := (Option.any_eq_true _ _).1 hclass
  obtain ⟨definition, -, h⟩ := List.any_eq_true.1 hroot
  obtain ⟨hlast, hnone⟩ := Bool.and_eq_true_iff.1 h
  obtain ⟨⟨x, value⟩, hlast, hvalue⟩ := (Option.any_eq_true _ _).1 hlast
  obtain ⟨hx, hfield⟩ := Bool.and_eq_true_iff.1 hvalue
  obtain ⟨f, hf⟩ := Option.isSome_iff_exists.1 hfield
  obtain rfl : x = "_name" := beq_iff_eq.1 hx
  intro hall
  rw [hall definition _ value f.typeTag hlast (fieldOf?_eq_some_iff.1 hf).1] at hnone
  cases hnone

end AddonAtlas.Source
