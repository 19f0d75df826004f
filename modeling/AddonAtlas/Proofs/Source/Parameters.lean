import AddonAtlas.Source.Unit
import Mathlib.Data.List.Basic

/-!
The parameters of a function, and those among them that are listed.

A parameter can be passed by position if no star stands before it. The list of a function ends at a
star without a type; one with a type is left out, but the names behind it are listed.
-/

namespace AddonAtlas.Source

/-- A parameter of a function, by the way in which it is passed. -/
inductive Parameter
  /-- A name, perhaps with a type and a default. -/
  | named (name : String)
  /-- A star alone, behind which parameters are passed by name. -/
  | star
  /-- The name behind a star, perhaps with a type, which takes the remaining arguments. -/
  | arguments (typed : Bool)
  /-- What is never passed by position under a name of its own: a slash, a name behind two stars,
  names in brackets, a comment. -/
  | other
  deriving DecidableEq, Repr

namespace Parameter

/-- What is said by a part of a parameter list. -/
def of (t : Tree) : Parameter :=
  match t.kind with
  | .identifier => named t.text
  | .defaultParameter | .typedDefaultParameter => (t.child? .name).elim other fun n => named n.text
  | .typedParameter => match t.namedChildren.head? with
    | some n => if n.kind = .identifier then named n.text
      else if n.kind = .listSplatPattern then arguments true else other
    | none => other
  | .listSplatPattern => arguments false
  | .keywordSeparator => star
  | _ => other

def name? : Parameter → Option String
  | named n => some n
  | _ => none

/-- Parameters behind it are passed by name only. -/
def endsPositional : Parameter → Bool
  | star | arguments _ => true
  | _ => false

/-- The list of a function ends at it. -/
def endsList : Parameter → Bool
  | star | arguments false => true
  | _ => false

/-- The names of the parameters that can be passed by position. -/
def positionalNames (ps : List Parameter) : List String :=
  (ps.takeWhile fun p => !p.endsPositional).filterMap name?

/-- The names that stand behind a star with a type, up to a star without one. -/
def lateNames (ps : List Parameter) : List String :=
  match ps.dropWhile fun p => !p.endsPositional with
  | arguments true :: rest => (rest.takeWhile fun p => !p.endsList).filterMap name?
  | _ => []

variable {ps : List Parameter} {p : Parameter} {n : String}

/-- A star with a type stands before a name, and no star without one. -/
def IsLate (ps : List Parameter) (n : String) : Prop :=
  ∃ front back, ps = front ++ named n :: back ∧ arguments true ∈ front ∧
    ∀ p ∈ front, p.endsList = false

/-- Names before all stars come first, then those behind a star with a type. -/
lemma positionalNames_append_lateNames (ps : List Parameter) :
    positionalNames ps ++ lateNames ps = (ps.takeWhile fun p => !p.endsList).filterMap name? := by
  induction ps with
  | nil => rfl
  | cons p ps ih =>
    cases p with
    | star => rfl
    | arguments typed => cases typed <;> rfl
    | named n => exact congrArg (n :: ·) ih
    | other => exact ih

lemma name?_eq_some_iff : p.name? = some n ↔ p = named n := by
  cases p <;> simp [name?]

lemma mem_names_takeWhile : n ∈ (ps.takeWhile fun p => !p.endsList).filterMap name? ↔
    ∃ front back, ps = front ++ named n :: back ∧ ∀ p ∈ front, p.endsList = false := by
  constructor
  · intro h
    obtain ⟨p, hp, hname⟩ := List.mem_filterMap.1 h
    obtain rfl := name?_eq_some_iff.1 hname
    obtain ⟨front, back, hfront⟩ := List.append_of_mem hp
    have hall :=
      List.all_eq_true.1 (List.all_takeWhile (p := fun p : Parameter => !p.endsList) (l := ps))
    refine ⟨front, back ++ ps.dropWhile fun p => !p.endsList, ?_, fun q hq => ?_⟩
    · rw [← List.cons_append, ← List.append_assoc, ← hfront, List.takeWhile_append_dropWhile]
    · simpa using hall q (hfront ▸ List.mem_append_left _ hq)
  · rintro ⟨front, back, rfl, hfront⟩
    rw [List.takeWhile_append_of_pos fun p hp => by simp [hfront p hp],
      List.takeWhile_cons_of_pos rfl]
    simp [name?]

lemma isLate_cons : IsLate (p :: ps) n ↔ p.endsList = false ∧
    ∃ front back, ps = front ++ named n :: back ∧ (p = arguments true ∨ arguments true ∈ front) ∧
      ∀ q ∈ front, q.endsList = false := by
  constructor
  · rintro ⟨front, back, h, htyped, hfront⟩
    cases front with
    | nil => cases htyped
    | cons q front =>
      obtain ⟨rfl, hps⟩ := List.cons.inj h
      obtain ⟨hp, hfront⟩ := List.forall_mem_cons.1 hfront
      exact ⟨hp, front, back, hps, (List.mem_cons.1 htyped).imp_left Eq.symm, hfront⟩
  · rintro ⟨hp, front, back, rfl, htyped, hfront⟩
    exact ⟨p :: front, back, rfl, List.mem_cons.2 (htyped.imp_left Eq.symm),
      List.forall_mem_cons.2 ⟨hp, hfront⟩⟩

lemma mem_lateNames : n ∈ lateNames ps ↔ IsLate ps n := by
  induction ps with
  | nil => simp [lateNames, IsLate]
  | cons p ps ih =>
    rw [isLate_cons]
    cases p with
    | star => simp [lateNames, endsPositional, endsList]
    | arguments typed => cases typed with
      | false => simp [lateNames, endsPositional, endsList]
      | true => simpa [lateNames, endsPositional, endsList] using mem_names_takeWhile
    | named m => simpa [lateNames, endsPositional, endsList, IsLate] using ih
    | other => simpa [lateNames, endsPositional, endsList, IsLate] using ih

end Parameter

open Parameter

/-- The parameters of a function, in their order. -/
def parametersOf (definition : Tree) : List Parameter :=
  (((definition.child? .parameters).map Tree.children).getD []).map Parameter.of

/-- A parameter ends the list, or its name is listed if it has one. -/
lemma parameterNames_cons (t : Tree) (ts : List Tree) : parameterNames (t :: ts) =
    if (Parameter.of t).endsList then []
    else (Parameter.of t).name?.toList ++ parameterNames ts := by
  rw [parameterNames]
  split <;> rename_i hk
  case h_2 | h_3 =>
    simp only [Parameter.of, hk]
    cases t.child? .name <;> rfl
  case h_4 =>
    simp only [Parameter.of, hk]
    cases t.namedChildren with
    | nil => rfl
    | cons n rest =>
      by_cases hname : n.kind = .identifier
      · simp [hname, endsList, name?]
      · by_cases hstar : n.kind = .listSplatPattern <;> simp [hstar, hname, endsList, name?]
  case h_1 | h_5 | h_6 => simp [Parameter.of, hk, endsList, name?]
  case h_7 => simp [Parameter.of, *, endsList, name?]

/-- Parameters are listed up to a star without a type. -/
lemma parameterNames_eq (ts : List Tree) : parameterNames ts =
    ((ts.map Parameter.of).takeWhile fun p => !p.endsList).filterMap name? := by
  induction ts with
  | nil => rfl
  | cons t ts ih =>
    rw [parameterNames_cons, List.map_cons, ih]
    cases hends : (Parameter.of t).endsList with
    | true => simp [hends]
    | false => cases hname : (Parameter.of t).name? <;> simp [hends, hname]

lemma parameters_functionOf (definition : Tree) : (functionOf definition).parameters =
    positionalNames (parametersOf definition) ++ lateNames (parametersOf definition) := by
  rw [positionalNames_append_lateNames, parametersOf, ← parameterNames_eq, functionOf]
  cases definition.child? .parameters <;> rfl

/-- **Listed parameters.** A function lists the names of the parameters that can be passed by
position, in their order, and behind them those that stand behind a star with a type, up to a star
without one. So it lists what can be passed by position and nothing else just if no name stands so.
-/
theorem parameters_eq_positionalNames_iff (definition : Tree) :
    (functionOf definition).parameters =
      positionalNames (parametersOf definition) ++ lateNames (parametersOf definition) ∧
    (∀ n, n ∈ lateNames (parametersOf definition) ↔ IsLate (parametersOf definition) n) ∧
    ((functionOf definition).parameters = positionalNames (parametersOf definition) ↔
      ∀ n, ¬ IsLate (parametersOf definition) n) := by
  refine ⟨parameters_functionOf definition, fun n => mem_lateNames, ?_⟩
  rw [parameters_functionOf, List.append_right_eq_self, List.eq_nil_iff_forall_not_mem]
  simp only [mem_lateNames]

/-- It is not so that a function lists only what can be passed by position: the type of a star
hides it. -/
theorem not_parameters_eq_positionalNames : ¬ ∀ definition,
    (functionOf definition).parameters = positionalNames (parametersOf definition) := by
  have hfunction : (parse "def f(self, *args: int, flag=True):\n    pass\n").any (fun root =>
      root.namedChildren.any fun definition =>
        decide ((functionOf definition).parameters = ["self", "flag"] ∧
          positionalNames (parametersOf definition) = ["self"])) = true := by
    decide +kernel
  obtain ⟨root, -, hroot⟩ := (Option.any_eq_true _ _).1 hfunction
  obtain ⟨definition, -, h⟩ := List.any_eq_true.1 hroot
  obtain ⟨hlisted, hpositional⟩ := of_decide_eq_true h
  intro hall
  rw [hall definition, hpositional] at hlisted
  simp at hlisted

end AddonAtlas.Source
