import AddonAtlas.Proofs.Source.Declarations

/-!
Names that classes give themselves, and names that they take over.

A class without a name that extends a single model reopens this model and takes its name. Whether a
class has a name is looked at when its body is over, and by then a value that is no literal text
has left nothing behind. So a class that names itself by a constant or a call is read like one that
does not name itself: where it extends a single model, it is filed as a piece of it.
-/

namespace AddonAtlas.Source

open OrdMap

variable {definition definition' : Tree} {n : String}

/-- The values that a class body assigns to the name of its model, in body order. -/
def ownNames (definition : Tree) : List Tree := valuesAt "_name" (assignments definition)

/-- A class has a name, and none of the values that it assigns to its name writes it. -/
def TakesOver (definition : Tree) (n : String) : Prop :=
  (classModel definition).name = some n ∧ ∀ value ∈ ownNames definition, literalText? value ≠ some n

/-- No value that a class assigns to its name is a literal text. -/
def NameUnwritten (definition : Tree) : Prop :=
  ∀ value ∈ ownNames definition, literalText? value = none

/-- The last literal text counts. -/
lemma lastName_assignments (definition : Tree) :
    lastName (assignments definition) =
      ((ownNames definition).filterMap literalText?).getLast? := by
  rw [lastName, ownNames, valuesAt, List.filterMap_map, List.filterMap_filter]
  congr 2
  funext a
  simp [declaredName?]

lemma lastName_assignments_eq_none_iff :
    lastName (assignments definition) = none ↔ NameUnwritten definition := by
  rw [lastName_assignments, List.getLast?_eq_none_iff, List.filterMap_eq_nil_iff, NameUnwritten]

/-- A name is taken over just if there is none, and from a single model. -/
lemma takesOver_iff : TakesOver definition n ↔
    NameUnwritten definition ∧ (classModel definition).inherit.toList = [n] := by
  rw [TakesOver, name_classModel, lastName_assignments_eq_none_iff]
  constructor
  · rintro ⟨hname | hadopted, hvalues⟩
    · -- a name that a literal writes is not taken over
      rw [lastName_assignments] at hname
      obtain ⟨value, hvalue, htext⟩ := List.mem_filterMap.1 (List.mem_of_getLast? hname)
      exact absurd htext (hvalues value hvalue)
    · exact hadopted
  · rintro ⟨hunwritten, hinherit⟩
    exact ⟨.inr ⟨hunwritten, hinherit⟩, fun value hvalue => by simp [hunwritten value hvalue]⟩

/-! ## What a class is read as -/

lemma foldl_assign_withFunctions (m : Model) (functions : NameMap Function)
    (as : List (String × Tree)) : as.foldl assign { m with functions := functions } =
      { as.foldl assign m with functions := functions } := by
  induction as using List.reverseRecOn with
  | nil => rfl
  | append_singleton as a ih => rw [List.foldl_concat, List.foldl_concat, ih, assign_eq, assign_eq]

/-- The assignments and the methods of a body can be taken one kind after the other. -/
lemma foldl_declareStatement_eq (m : Model) (body : List Tree) :
    body.foldl declareStatement m = { (body.flatMap assignmentsOf).foldl assign m with
      functions := m.functions.insertAll (body.filterMap methodOf?) } := by
  induction body using List.reverseRecOn with
  | nil => rfl
  | append_singleton body statement ih =>
    rw [List.foldl_concat, declareStatement_eq, ih, foldl_assign_withFunctions, List.flatMap_append,
      List.flatMap_singleton, List.foldl_append, List.filterMap_append]
    have hmethod : [statement].filterMap methodOf? = (methodOf? statement).toList := by
      rw [List.filterMap_eq_flatMap_toList, List.flatMap_singleton]
    rw [hmethod, insertAll, insertAll, insertAll, List.foldl_append]

lemma foldl_filter_tells (m : Model) (as : List (String × Tree)) :
    (as.filter tells).foldl assign m = as.foldl assign m := by
  rw [List.foldl_filter]
  congr 1
  funext m a
  split
  · rfl
  · rename_i h
    exact (assign_of_not_tells (Bool.not_eq_true _ ▸ h) m).symm

/-- Assignments that say nothing make no difference, wherever they stand. -/
lemma classModel_congr_tells
    (hassign : (assignments definition).filter tells = (assignments definition').filter tells)
    (hmethods : methods definition = methods definition') :
    classModel definition = classModel definition' := by
  rw [classModel_eq, classModel_eq, foldl_declareStatement_eq, foldl_declareStatement_eq]
  change Model.adoptInheritName { (assignments definition).foldl assign {} with
      functions := insertAll _ (methods definition) } =
    Model.adoptInheritName { (assignments definition').foldl assign {} with
      functions := insertAll _ (methods definition') }
  rw [← foldl_filter_tells, hassign, foldl_filter_tells, hmethods]

lemma not_tells_ownName {value : Tree} (h : literalText? value = none) :
    tells ("_name", value) = false := by
  simp [tells, declaredName?, declaredFields, h]

/-- A class that assigns no literal text to its name is read as if it assigned nothing to it. -/
lemma classModel_of_nameUnwritten (h : NameUnwritten definition)
    (hassign : assignments definition' = (assignments definition).filter fun a => a.1 ≠ "_name")
    (hmethods : methods definition' = methods definition) :
    classModel definition' = classModel definition := by
  refine classModel_congr_tells ?_ hmethods
  rw [hassign, List.filter_filter]
  refine List.filter_congr fun a ha => ?_
  obtain ⟨x, value⟩ := a
  by_cases hx : x = "_name"
  · subst hx
    have hvalue : value ∈ ownNames definition :=
      List.mem_map.2 ⟨_, List.mem_filter.2 ⟨ha, by simp⟩, rfl⟩
    simp [not_tells_ownName (h value hvalue)]
  · simp [hx]

/-! ## Where a class is filed -/

lemma adoptInheritName_classModel (definition : Tree) :
    (classModel definition).adoptInheritName = classModel definition := by
  obtain ⟨m, hm, -⟩ := exists_readOff definition
  rw [hm, Model.adoptInheritName_adoptInheritName]

lemma get?_models_addClass (p : Package) (ident : String) (definition : Tree) (n : String) :
    (p.addClass (ident, classModel definition)).models.get? n =
      if (classModel definition).name = some n
        then Model.pile (p.models.get? n) (classModel definition) else p.models.get? n := by
  rw [Package.models_addClass, Package.get?_fileModel, adoptInheritName_classModel]

/-- **Names taken over.** A class has the name that the last literal text assigned to its name
writes. Only where no value assigned to it is a literal text does it take over a name, and just if
it extends a single model: then it is read as if it assigned nothing to its name. A package files
the class as a piece of the model of its name, so of the model that it extends if the name is taken
over, and leaves all other models as they are. -/
theorem classModel_takesOver_iff (definition : Tree) :
    (∀ n, TakesOver definition n ↔
      NameUnwritten definition ∧ (classModel definition).inherit.toList = [n]) ∧
    (∀ n, (classModel definition).name = some n ↔
      ((ownNames definition).filterMap literalText?).getLast? = some n ∨ TakesOver definition n) ∧
    (NameUnwritten definition → ∀ definition', methods definition' = methods definition →
      (assignments definition' = (assignments definition).filter fun a => a.1 ≠ "_name") →
        classModel definition' = classModel definition) ∧
    ∀ (p : Package) (ident n : String), (p.addClass (ident, classModel definition)).models.get? n =
      if (classModel definition).name = some n
        then Model.pile (p.models.get? n) (classModel definition) else p.models.get? n := by
  refine ⟨fun n => takesOver_iff, fun n => ?_, fun h definition' hmethods hassign =>
    classModel_of_nameUnwritten h hassign hmethods, fun p ident n =>
      get?_models_addClass p ident _ n⟩
  rw [name_classModel, takesOver_iff, lastName_assignments_eq_none_iff, lastName_assignments]

instance : Decidable (TakesOver definition n) := inferInstanceAs (Decidable (_ ∧ _))

/-- It is not so that a class which assigns something to its name takes no name over: a constant
that names a new model is passed over, and the new model is taken for a piece of the one that it
extends. -/
theorem not_forall_not_takesOver : ¬ ∀ definition n, ownNames definition ≠ [] →
    ¬ TakesOver definition n := by
  have hclass :
      (parse "class A(models.Model):\n    _name = MODEL\n    _inherit = 'mail.thread'\n").any
      (fun root => root.namedChildren.any fun definition =>
        decide (ownNames definition ≠ [] ∧ TakesOver definition "mail.thread")) = true := by
    decide +kernel
  obtain ⟨root, -, hroot⟩ := (Option.any_eq_true _ _).1 hclass
  obtain ⟨definition, -, h⟩ := List.any_eq_true.1 hroot
  obtain ⟨hnames, htaken⟩ := of_decide_eq_true h
  exact fun hall => hall definition "mail.thread" hnames htaken

end AddonAtlas.Source
