import AddonAtlas.Source.Converter
import AddonAtlas.Source.Unit
import AddonAtlas.Proofs.Ordered.Lookup
import AddonAtlas.Proofs.Text.Split

/-!
Which attempt at a source counts.

Attempts are run in turn, and the first success counts. The text that the last attempt mends has
failed before, as it was or as the converter left it, so the last attempt succeeds only where
mending has changed something. A converter that fails and changes the text all the same makes an
exception: nothing has tried what it left behind, and where there is nothing to mend, it is read
without a flag.
-/

namespace AddonAtlas

/-! ## Steps that can fail -/

section

variable {ε : Type u} {α β : Type v} {b : β}

lemma exists_of_bind {x : Except ε α} {f : α → Except ε β} (h : x >>= f = .ok b) :
    ∃ a, x = .ok a ∧ f a = .ok b := by
  cases x with
  | error e => cases h
  | ok a => exact ⟨a, rfl, h⟩

lemma exists_of_map {x : Except ε α} {f : α → β} (h : x.map f = .ok b) :
    ∃ a, x = .ok a ∧ f a = b := by
  cases x with
  | error e => cases h
  | ok a => exact ⟨a, rfl, Except.ok.inj h⟩

lemma exists_of_toOption_map {γ : Type w} {x : Except ε α} {f : α → γ} {c : γ}
    (h : x.toOption.map f = some c) : ∃ a, x = .ok a ∧ f a = c := by
  cases x with
  | error e => cases h
  | ok a => exact ⟨a, rfl, Option.some.inj h⟩

lemma eq_of_mapError {ε' : Type w} {x : Except ε β} {f : ε → ε'} (h : x.mapError f = .ok b) :
    x = .ok b := by
  cases x with
  | error e => cases h
  | ok a => exact congrArg Except.ok (Except.ok.inj h)

end

namespace Source

/-! ## In turn -/

section InTurn

variable {α ε β : Type} {run : α → Except ε β} {l : List α} {last a : α} {b : β} {e : ε}

/-- An attempt fails. -/
def Fails (run : α → Except ε β) (a : α) : Prop := ∃ e, run a = .error e

/-- Run attempts in turn and one last of all: the first success counts, else the last failure. -/
def inTurn (run : α → Except ε β) (last : α) : List α → Except ε β
  | [] => run last
  | a :: r => match run a with
    | .ok b => .ok b
    | .error _ => inTurn run last r

lemma not_fails_iff : ¬ Fails run a ↔ ∃ b, run a = .ok b := by
  rw [Fails]
  cases run a <;> simp

lemma fails_iff_isOk : Fails run a ↔ (run a).isOk = false := by
  rw [Fails]
  cases run a <;> simp [Except.isOk, Except.toBool]

instance : Decidable (Fails run a) := decidable_of_iff _ fails_iff_isOk.symm

/-- The last attempt counts only where all others fail. -/
lemma inTurn_congr_last {last' : α} (h : (∀ a ∈ l, Fails run a) → run last = run last') :
    inTurn run last l = inTurn run last' l := by
  induction l with
  | nil => exact h (by simp)
  | cons a r ih =>
    rw [inTurn, inTurn]
    cases ha : run a with
    | ok b => rfl
    | error e => exact ih fun hr => h (List.forall_mem_cons.2 ⟨⟨e, ha⟩, hr⟩)

lemma inTurn_eq_error_iff :
    inTurn run last l = .error e ↔ (∀ a ∈ l, Fails run a) ∧ run last = .error e := by
  induction l with
  | nil => simp [inTurn]
  | cons a r ih =>
    rw [inTurn, List.forall_mem_cons]
    cases ha : run a with
    | ok b => simp [Fails, ha]
    | error e' => simp [Fails, ha, ih]

/-- The first success among some attempts is the first attempt, or it comes behind its failure. -/
lemma exists_first_cons {x : α} : (∃ before a after, x :: l = before ++ a :: after ∧
      (∀ y ∈ before, Fails run y) ∧ run a = .ok b) ↔
    run x = .ok b ∨ Fails run x ∧ ∃ before a after, l = before ++ a :: after ∧
      (∀ y ∈ before, Fails run y) ∧ run a = .ok b := by
  constructor
  · rintro ⟨before, a, after, hl, hbefore, ha⟩
    cases before with
    | nil =>
      obtain rfl : x = a := (List.cons.inj hl).1
      exact .inl ha
    | cons y before =>
      obtain ⟨rfl, rfl⟩ := List.cons.inj hl
      obtain ⟨hx, hbefore⟩ := List.forall_mem_cons.1 hbefore
      exact .inr ⟨hx, before, a, after, rfl, hbefore, ha⟩
  · rintro (hx | ⟨hx, before, a, after, rfl, hbefore, ha⟩)
    · exact ⟨[], x, l, rfl, by simp, hx⟩
    · exact ⟨x :: before, a, after, rfl, List.forall_mem_cons.2 ⟨hx, hbefore⟩, ha⟩

lemma inTurn_eq_ok_iff : inTurn run last l = .ok b ↔
    ∃ before a after, l ++ [last] = before ++ a :: after ∧ (∀ x ∈ before, Fails run x) ∧
      run a = .ok b := by
  induction l with
  | nil =>
    rw [List.nil_append, exists_first_cons]
    simp [inTurn]
  | cons x r ih =>
    rw [List.cons_append, exists_first_cons, ← ih, inTurn]
    cases hx : run x with
    | ok c => simp [Fails, hx]
    | error e => simp [Fails, hx]

end InTurn

/-! ## Attempts at a source -/

/-- One attempt at a source: a text, whether it may have statements of an older revision, and what
is told of it if it succeeds. -/
structure Attempt where
  strategy : Strategy
  text : String
  allowLegacy : Bool := false
  status : NameSet := .empty

variable {τ : Type}

def Attempt.run (g : GrammarOf τ) (a : Attempt) : Except ParseFailure (Parsed τ) :=
  (g.attempt a.allowLegacy a.text).map fun t => ⟨t, a.text, a.strategy, a.status⟩

/-- The attempts at a text before its indentation is mended. What the converter left is tried only
if the converter ran. -/
def unmendedAttempts (text left : String) (ran : Bool) : List Attempt :=
  [{ strategy := .current, text := text },
    { strategy := .legacy, text := text, allowLegacy := true,
      status := .singleton "feature-2-7" }] ++
  if ran then [{ strategy := .converted, text := left, status := .singleton "ported" }] else []

/-- The last attempt, told as one that has mended the indentation. -/
def mendedAttempt (left : String) (ran : Bool) : Attempt where
  strategy := .indentFixed
  text := fixIndentation left
  status := .ofList (if ran then ["ported", "indent-fix"] else ["indent-fix"])

/-- All attempts at a text, in their order. -/
def attempts (text left : String) (ran : Bool) : List Attempt :=
  unmendedAttempts text left ran ++ [mendedAttempt left ran]

variable {g : GrammarOf τ} {converter : String → Converted} {text left : String} {a : Attempt}
  {p : Parsed τ} {t : τ} {e : ParseFailure}

/-- An attempt reads a tree: the text has no syntax error, and either the attempt allows statements
of an older revision or the text has none. -/
def Attempt.Reads (g : GrammarOf τ) (a : Attempt) (t : τ) : Prop :=
  g.tree? a.text = some t ∧ (a.allowLegacy = true ∨ g.legacyLine? t = none)

/-- How an attempt fails: by the first fault of a text with a syntax error, or by the first
statement of an older revision, unless the attempt allows it. -/
inductive Attempt.FailsBy (g : GrammarOf τ) (a : Attempt) : ParseFailure → Prop
  | malformed : g.tree? a.text = none →
      FailsBy g a (.malformed ((g.fault? a.text).getD .unknown))
  | legacy {t : τ} {n : Nat} : g.tree? a.text = some t → g.legacyLine? t = some n →
      a.allowLegacy = false → FailsBy g a (.legacy n)

lemma attempt_eq_ok_iff {allow : Bool} : g.attempt allow text = .ok t ↔
    g.tree? text = some t ∧ (allow = true ∨ g.legacyLine? t = none) := by
  rw [GrammarOf.attempt]
  cases g.tree? text with
  | none => simp
  | some t' =>
    dsimp only
    cases hline : g.legacyLine? t' with
    | none =>
      rw [Except.ok.injEq, Option.some.injEq]
      exact ⟨fun h => ⟨h, .inr (h ▸ hline)⟩, And.left⟩
    | some n =>
      cases allow with
      | true => simp
      | false =>
        have hlegacy : ¬ (t' = t ∧ g.legacyLine? t = none) := by
          rintro ⟨rfl, h⟩
          simp [hline] at h
        simpa using hlegacy

lemma attempt_eq_error_iff : g.attempt a.allowLegacy a.text = .error e ↔ a.FailsBy g e := by
  rw [GrammarOf.attempt]
  constructor
  · intro h
    split at h
    · obtain rfl := Except.error.inj h
      exact .malformed ‹_›
    · split at h
      · split at h
        · cases h
        · obtain rfl := Except.error.inj h
          exact .legacy ‹_› ‹_› (by simpa using ‹¬ a.allowLegacy = true›)
      · cases h
  · rintro (htree | ⟨htree, hline, hallow⟩)
    · simp [htree]
    · simp [htree, hline, hallow]

lemma Attempt.run_eq_ok_iff :
    a.run g = .ok p ↔ ∃ t, a.Reads g t ∧ p = ⟨t, a.text, a.strategy, a.status⟩ := by
  simp only [Reads, ← attempt_eq_ok_iff, run]
  cases g.attempt a.allowLegacy a.text with
  | error e => simp [Except.map]
  | ok t => simp [Except.map, eq_comm]

lemma Attempt.run_eq_error_iff :
    a.run g = .error e ↔ g.attempt a.allowLegacy a.text = .error e := by
  rw [run]
  cases g.attempt a.allowLegacy a.text <;> simp [Except.map]

lemma Attempt.fails_iff : Fails (run g) a ↔ ∀ t, ¬ a.Reads g t := by
  rw [← not_exists, ← not_iff_not, not_fails_iff, not_not]
  simp only [run_eq_ok_iff]
  exact ⟨fun ⟨_, t, ht, _⟩ => ⟨t, ht⟩, fun ⟨t, ht⟩ => ⟨_, t, ht, rfl⟩⟩

/-- The last attempt as it is run: it tells of the mending only if that has changed something. -/
def lastAttempt (left : String) (ran : Bool) : Attempt where
  strategy := .indentFixed
  text := fixIndentation left
  status :=
    let before : NameSet := if ran then .singleton "ported" else .empty
    if fixIndentation left = left then before else before.insert "indent-fix"

lemma mended_eq (g : GrammarOf τ) (left : String) (ran : Bool) :
    g.mended (if ran then .singleton "ported" else .empty) (some left) =
      (lastAttempt left ran).run g := by
  rw [GrammarOf.mended, Attempt.run, lastAttempt]
  cases g.attempt false (fixIndentation left) <;> rfl

/-- A source is recovered by attempts in turn. -/
lemma recover_eq_inTurn (hleft : (converter text).text? = some left) :
    g.recover converter text = inTurn (Attempt.run g) (lastAttempt left (converter text).succeeded)
      (unmendedAttempts text left (converter text).succeeded) := by
  have hfeature : Status.feature 2 7 = "feature-2-7" := by decide
  have hmended := mended_eq g left (converter text).succeeded
  rw [GrammarOf.recover, unmendedAttempts, List.cons_append, List.cons_append, List.nil_append]
  cases hcurrent : g.attempt false text with
  | ok t => simp [inTurn, Attempt.run, hcurrent, Except.map]
  | error e =>
    cases hlegacy : g.attempt true text with
    | ok t => simp [inTurn, Attempt.run, hcurrent, hlegacy, hfeature, Except.map]
    | error e' =>
      cases hran : (converter text).succeeded with
      | false =>
        rw [hran] at hmended
        simpa [inTurn, Attempt.run, hcurrent, hlegacy, hran, hleft, Except.map] using hmended
      | true =>
        rw [hran] at hmended
        cases hconverted : g.attempt false left with
        | ok t =>
          simp [inTurn, Attempt.run, hcurrent, hlegacy, hran, hleft, hconverted, Status.converted,
            Except.map]
        | error e'' =>
          simpa [inTurn, Attempt.run, hcurrent, hlegacy, hran, hleft, hconverted, Status.converted,
            Except.map] using hmended

/-- Where the attempts before it fail, the text that the last attempt mends has failed as it was. -/
lemma attempt_left_of_fails {ran : Bool} (hkept : ran = false → left = text)
    (h : ∀ a ∈ unmendedAttempts text left ran, Fails (Attempt.run g) a) :
    ∃ e, g.attempt false left = .error e := by
  cases ran with
  | false =>
    obtain ⟨e, he⟩ := h { strategy := .current, text := text } (by simp [unmendedAttempts])
    exact ⟨e, hkept rfl ▸ Attempt.run_eq_error_iff.1 he⟩
  | true =>
    obtain ⟨e, he⟩ := h { strategy := .converted, text := left, status := .singleton "ported" }
      (by simp [unmendedAttempts])
    exact ⟨e, Attempt.run_eq_error_iff.1 he⟩

/-- So it may be told as one that has mended the indentation in any case. -/
lemma run_lastAttempt_of_fails {ran : Bool} (hkept : ran = false → left = text)
    (h : ∀ a ∈ unmendedAttempts text left ran, Fails (Attempt.run g) a) :
    (lastAttempt left ran).run g = (mendedAttempt left ran).run g := by
  by_cases hfixed : fixIndentation left = left
  · obtain ⟨e, he⟩ := attempt_left_of_fails hkept h
    have hlast : (lastAttempt left ran).run g = .error e :=
      Attempt.run_eq_error_iff.2 ((congrArg (g.attempt false) hfixed).trans he)
    have hmended : (mendedAttempt left ran).run g = .error e :=
      Attempt.run_eq_error_iff.2 ((congrArg (g.attempt false) hfixed).trans he)
    rw [hlast, hmended]
  · have hstatus : (lastAttempt left ran).status = (mendedAttempt left ran).status := by
      rw [lastAttempt, mendedAttempt, if_neg hfixed]
      cases ran <;> rfl
    rw [Attempt.run, hstatus]
    rfl

/-- Only one attempt allows statements of an older revision. -/
lemma strict_of_mem_attempts (text left : String) (ran : Bool) :
    ∀ a ∈ attempts text left ran, a.strategy ≠ .legacy → a.allowLegacy = false := by
  cases ran <;> simp [attempts, unmendedAttempts, mendedAttempt]

/-- **The first success counts.** A source that can be read, with a converter that leaves a text
behind and, if it fails, the source as it is, is recovered by the first attempt that reads a tree:
the source as it is; the source with statements of an older revision; what a converter that ran has
made of it; and this text with its indentation mended. What is told of it is that of the attempt:
mending is always told, and converting just if the converter ran. The text is that of the attempt,
and a converted or mended text has no statement of an older revision. If no attempt reads a tree,
the failure is that of the last one. -/
theorem recover_inTurn (g : GrammarOf τ) (converter : String → Converted) (text left : String)
    (hleft : (converter text).text? = some left)
    (hkept : (converter text).succeeded = false → left = text) :
    (∀ p, g.recover converter text = .ok p ↔ ∃ before a after t,
      attempts text left (converter text).succeeded = before ++ a :: after ∧
      (∀ b ∈ before, ∀ u, ¬ b.Reads g u) ∧ a.Reads g t ∧
      p = ⟨t, a.text, a.strategy, a.status⟩) ∧
    (∀ p, g.recover converter text = .ok p → g.tree? p.source = some p.tree ∧
      (p.strategy = .converted ∨ p.strategy = .indentFixed → g.legacyLine? p.tree = none)) ∧
    ∀ e, g.recover converter text = .error e ↔
      (∀ a ∈ attempts text left (converter text).succeeded, ∀ t, ¬ a.Reads g t) ∧
      (mendedAttempt left (converter text).succeeded).FailsBy g e := by
  have hrecover : g.recover converter text =
      inTurn (Attempt.run g) (mendedAttempt left (converter text).succeeded)
        (unmendedAttempts text left (converter text).succeeded) :=
    (recover_eq_inTurn hleft).trans (inTurn_congr_last (run_lastAttempt_of_fails hkept))
  have hfirst : ∀ p, g.recover converter text = .ok p ↔ ∃ before a after t,
      attempts text left (converter text).succeeded = before ++ a :: after ∧
      (∀ b ∈ before, ∀ u, ¬ b.Reads g u) ∧ a.Reads g t ∧
      p = ⟨t, a.text, a.strategy, a.status⟩ := fun p => by
    rw [hrecover, inTurn_eq_ok_iff, attempts]
    simp only [Attempt.fails_iff, Attempt.run_eq_ok_iff, exists_and_left]
  refine ⟨hfirst, fun p hp => ?_, fun e => ?_⟩
  · obtain ⟨before, a, after, t, hsplit, -, ⟨htree, hline⟩, rfl⟩ := (hfirst p).1 hp
    refine ⟨htree, fun hstrategy => hline.resolve_left ?_⟩
    have hmem : a ∈ attempts text left (converter text).succeeded := by
      rw [hsplit]
      simp
    have hlegacy : a.strategy ≠ .legacy := by
      rintro heq
      simp [heq] at hstrategy
    simp [strict_of_mem_attempts text left _ a hmem hlegacy]
  · rw [hrecover, inTurn_eq_error_iff, attempts, Attempt.run_eq_error_iff, attempt_eq_error_iff]
    simp only [Attempt.fails_iff]
    constructor
    · rintro ⟨hfails, hlast⟩
      refine ⟨fun a ha => ?_, hlast⟩
      rcases List.mem_append.1 ha with ha | ha
      · exact hfails a ha
      · rw [List.mem_singleton.1 ha, ← Attempt.fails_iff]
        exact ⟨e, Attempt.run_eq_error_iff.2 (attempt_eq_error_iff.2 hlast)⟩
    · rintro ⟨hfails, hlast⟩
      exact ⟨fun a ha => hfails a (List.mem_append_left _ ha), hlast⟩

/-- A source of an older revision. -/
def printStatement : String := "print 'hello'\n"

/-- A source that only its blanks keep from being read. -/
def blankBehindBackslash : String := "x = 1 + \\ \n2\n"

theorem recover_inTurn_print_blank :
    (∃ p, python.recover (runConverter .empty {}) printStatement = .ok p ∧ p.strategy = .legacy ∧
      p.source = printStatement ∧ p.status.toList = ["feature-2-7"] ∧
      python.legacyLine? p.tree = some 1) ∧
    (runConverter .empty {} blankBehindBackslash).text? = some blankBehindBackslash ∧
    ∃ p, python.recover (runConverter .empty {}) blankBehindBackslash = .ok p ∧
      p.strategy = .indentFixed ∧ p.source = "x = 1 + \\\n2\n" ∧ p.status.toList = ["indent-fix"] ∧
      python.legacyLine? p.tree = none := by
  obtain ⟨hlegacy, -, -⟩ := recover_inTurn python (runConverter .empty {}) printStatement
    printStatement rfl fun _ => rfl
  obtain ⟨hfirst, hread, -⟩ := recover_inTurn python (runConverter .empty {}) blankBehindBackslash
    blankBehindBackslash rfl fun _ => rfl
  obtain ⟨t, htree, hline⟩ := Option.bind_eq_some_iff.1
    (by decide +kernel : (python.tree? printStatement).bind python.legacyLine? = some 1)
  have hstrict :
      ∀ u, ¬ Attempt.Reads python { strategy := .current, text := printStatement } u := by
    rintro u ⟨hu, hnone⟩
    obtain rfl : t = u := Option.some.inj (htree.symm.trans hu)
    simp [hline] at hnone
  have hfails : ∀ a ∈ unmendedAttempts blankBehindBackslash blankBehindBackslash false,
      Fails (Attempt.run python) a := by decide +kernel
  have hmended : ¬ Fails (Attempt.run python) (mendedAttempt blankBehindBackslash false) := by
    decide +kernel
  obtain ⟨p, hp⟩ := not_fails_iff.1 hmended
  obtain ⟨u, hu, rfl⟩ := Attempt.run_eq_ok_iff.1 hp
  have hrecover := (hfirst _).2
    ⟨_, _, [], u, rfl, fun a ha => Attempt.fails_iff.1 (hfails a ha), hu, rfl⟩
  have hfixed : fixIndentation blankBehindBackslash = "x = 1 + \\\n2\n" := by decide +kernel
  refine ⟨⟨_, (hlegacy _).2 ⟨[_], _, [_], t, rfl, by simpa using hstrict, ⟨htree, .inl rfl⟩, rfl⟩,
      rfl, rfl, rfl, hline⟩,
    rfl, _, hrecover, rfl, hfixed, rfl, (hread _ hrecover).2 (.inr rfl)⟩

/-! ## Flags -/

/-- Where the converter leaves nothing that can be read, no other text than the source itself is. -/
lemma attempt_of_unreadable (hleft : (converter text).text? = none)
    (hp : g.recover converter text = .ok p) :
    p.source = text ∧ ∃ allowLegacy, g.attempt allowLegacy text = .ok p.tree := by
  rw [GrammarOf.recover] at hp
  cases hcurrent : g.attempt false text with
  | ok t =>
    rw [hcurrent] at hp
    rw [← Except.ok.inj hp]
    exact ⟨rfl, false, hcurrent⟩
  | error e =>
    cases hlegacy : g.attempt true text with
    | ok t =>
      rw [hcurrent, hlegacy] at hp
      rw [← Except.ok.inj hp]
      exact ⟨rfl, true, hlegacy⟩
    | error e' =>
      cases hran : (converter text).succeeded <;>
        simp [hcurrent, hlegacy, hran, hleft, GrammarOf.mended] at hp

lemma source_of_unreadable (hleft : (converter text).text? = none)
    (hp : g.recover converter text = .ok p) : p.source = text :=
  (attempt_of_unreadable hleft hp).1

/-- The tree belongs to the text that is told as the source. -/
lemma tree?_of_recover (hp : g.recover converter text = .ok p) :
    g.tree? p.source = some p.tree := by
  cases hleft : (converter text).text? with
  | none =>
    obtain ⟨hsource, allowLegacy, htree⟩ := attempt_of_unreadable hleft hp
    exact hsource ▸ (attempt_eq_ok_iff.1 htree).1
  | some left =>
    rw [recover_eq_inTurn hleft, inTurn_eq_ok_iff] at hp
    obtain ⟨before, a, after, -, -, ha⟩ := hp
    obtain ⟨t, ⟨htree, -⟩, rfl⟩ := Attempt.run_eq_ok_iff.1 ha
    exact htree

/-- A source is told to be converted or mended. -/
def Parsed.IsFlagged (p : Parsed τ) : Prop :=
  "ported" ∈ p.status.toList ∨ "indent-fix" ∈ p.status.toList

/-- A converter fails, and leaves a text behind whose indentation needs no mending. -/
def LeavesMended (c : Converted) (left : String) : Prop :=
  c.succeeded = false ∧ c.text? = some left ∧ fixIndentation left = left

/-- The last attempt is flagged unless there is nothing to tell. -/
lemma mem_status_lastAttempt {ran : Bool} :
    "ported" ∈ (lastAttempt left ran).status.toList ∨
      "indent-fix" ∈ (lastAttempt left ran).status.toList ↔
        ran = true ∨ fixIndentation left ≠ left := by
  rw [lastAttempt]
  by_cases hfixed : fixIndentation left = left <;> cases ran <;>
    simp [hfixed, OrdSet.singleton, OrdSet.empty]

/-- An attempt before the last one reads the source itself, or tells of the conversion. -/
lemma text_of_mem_unmendedAttempts (text left : String) (ran : Bool) :
    ∀ a ∈ unmendedAttempts text left ran,
      a.text = text ∨ ran = true ∧ "ported" ∈ a.status.toList := by
  cases ran <;> simp [unmendedAttempts, OrdSet.singleton]

/-- **Flags.** A source that is recovered by another text than its own is flagged as converted or
mended, unless the converter has failed and left behind the very text that is read, with nothing in
it to mend. Then it is not flagged. -/
theorem recover_isFlagged_iff (g : GrammarOf τ) (converter : String → Converted) (text : String)
    (p : Parsed τ) (hp : g.recover converter text = .ok p) (hsource : p.source ≠ text) :
    p.IsFlagged ↔ ¬ LeavesMended (converter text) p.source := by
  cases hleft : (converter text).text? with
  | none => exact absurd (source_of_unreadable hleft hp) hsource
  | some left =>
    rw [recover_eq_inTurn hleft, inTurn_eq_ok_iff] at hp
    obtain ⟨before, a, after, hsplit, -, ha⟩ := hp
    obtain ⟨t, -, rfl⟩ := Attempt.run_eq_ok_iff.1 ha
    rw [Parsed.IsFlagged, LeavesMended, hleft]
    have hmem : a ∈ unmendedAttempts text left (converter text).succeeded ∨
        a = lastAttempt left (converter text).succeeded := by
      rw [← List.mem_singleton, ← List.mem_append, hsplit]
      simp
    rcases hmem with hmem | rfl
    · rcases text_of_mem_unmendedAttempts text left _ a hmem with htext | ⟨hran, hported⟩
      · exact absurd htext hsource
      · exact iff_of_true (.inl hported) fun h => by simp [hran] at h
    · have htext : (lastAttempt left (converter text).succeeded).text = fixIndentation left := rfl
      rw [mem_status_lastAttempt, htext, Option.some.injEq]
      by_cases hfixed : fixIndentation left = left
      · simp [hfixed]
      · simp [hfixed, Ne.symm hfixed]

open Tool in
/-- A substitution is made in a single line. -/
lemma editText_line (s : Substitution) {line : String} (h : '\n' ∉ line.toList) :
    editText [s] (line ++ "\n") = String.ofList
      (s.applyFrom line.toList.toArray (line.toList.toArray.size + 1) 0) ++ "\n" := by
  have hsplit : (line ++ "\n").splitOn "\n" = [line, ""] := by
    have happend := Text.splitOn_append line "" '\n'
    rw [Text.splitOn_of_not_mem h, Text.splitOn_of_not_mem (s := "") (by simp),
      String.append_empty] at happend
    exact happend
  rw [editText, hsplit]
  simp

/-- A script is run on the scratch copy and on a file that is not there. -/
def editAndFail (script : String) : ToolSettings where
  converter := ["sed", "-i", script, "absent.py"]

/-- The edit is made, and for the missing file the converter fails. -/
lemma runConverter_editAndFail {script : String} (line : String) {s : Tool.Substitution}
    (h : Tool.Substitution.parseAll (script.length + 1) script.toList = some [s])
    (hline : '\n' ∉ line.toList) :
    runConverter .common (editAndFail script) (line ++ "\n") = ⟨false, some (String.ofList
      (s.applyFrom line.toList.toArray (line.toList.toArray.size + 1) 0) ++ "\n")⟩ := by
  have hrun (text : String) : runConverter .common (editAndFail script) text =
      ⟨false, some (Tool.editText [s] text)⟩ := by
    simp [runConverter, Tool.run, editAndFail, Tool.Toolbox.common, scratchSight, scratchName, h,
      Text.fromUTF8?_toByteArray]
  rw [hrun, editText_line s hline]

/-- The substitution of characters for a bracket. -/
def replaceBracket (cs : List Char) : Tool.Substitution := ⟨[(.char '(', false)], cs, false⟩

lemma exists_recover {source : String} {flags : List String}
    (hleft : converter text = ⟨false, some left⟩)
    (h : (inTurn (Attempt.run g) (lastAttempt left false)
      (unmendedAttempts text left false)).toOption.map (fun p => (p.source, p.status.toList)) =
        some (source, flags)) :
    ∃ p, g.recover converter text = .ok p ∧ p.source = source ∧ p.status.toList = flags := by
  rw [recover_eq_inTurn (congrArg Converted.text? hleft), hleft]
  obtain ⟨p, hp, hread⟩ := exists_of_toOption_map h
  obtain ⟨hsource, hflags⟩ := Prod.mk.inj hread
  exact ⟨p, hp, hsource, hflags⟩

theorem recover_isFlagged_iff_blank : ∃ p,
    python.recover (runConverter .common (editAndFail "s/(/1 /")) "x = (\n" = .ok p ∧
      p.source = "x = 1\n" ∧ p.source ≠ "x = (\n" ∧ p.IsFlagged := by
  have hleft : runConverter .common (editAndFail "s/(/1 /") "x = (\n" =
      ⟨false, some "x = 1 \n"⟩ :=
    runConverter_editAndFail "x = (" (s := replaceBracket ['1', ' ']) rfl (by decide)
  obtain ⟨p, hp, hsource, -⟩ := exists_recover (g := python) hleft
    (by decide +kernel : _ = some ("x = 1\n", ["indent-fix"]))
  have hne : p.source ≠ "x = (\n" := by
    rw [hsource]
    decide
  have hmended :
      ¬ LeavesMended (runConverter .common (editAndFail "s/(/1 /") "x = (\n") p.source := by
    rw [LeavesMended, hleft, hsource]
    simp
  exact ⟨p, hp, hsource, hne, (recover_isFlagged_iff python _ _ p hp hne).2 hmended⟩

/-- It is not so that a changed text is always flagged: a converter may change the text and fail. -/
theorem not_isFlagged_of_source_ne : ¬ ∀ (converter : String → Converted) (text : String)
    (p : Parsed Tree), python.recover converter text = .ok p → p.source ≠ text → p.IsFlagged := by
  intro h
  have hleft : runConverter .common (editAndFail "s/(/1/") "x = (\n" = ⟨false, some "x = 1\n"⟩ :=
    runConverter_editAndFail "x = (" (s := replaceBracket ['1']) rfl (by decide)
  obtain ⟨p, hp, hsource, hflags⟩ := exists_recover (g := python) hleft
    (by decide +kernel : _ = some ("x = 1\n", []))
  have hflagged := h _ _ p hp (by rw [hsource]; decide)
  rw [Parsed.IsFlagged, hflags] at hflagged
  simp at hflagged

end Source

end AddonAtlas
