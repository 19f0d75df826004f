import AddonAtlas.Proofs.Catalog.Filters
import AddonAtlas.Proofs.Catalog.ModuleGraph

/-!
Migration states under filters.

A state says of a package whether its own version matches, and whether those of its declared
dependencies do that are selected. Filters leave the versions alone and take dependencies away, so
the first part stays and the second one can only come to hold.
-/

namespace AddonAtlas

namespace MigrationState

/-- The package itself has been moved. -/
def IsMigrated (s : MigrationState) : Prop := s = .done ∨ s = .partly

/-- What fewer dependencies may make of a state. -/
inductive Eases : MigrationState → MigrationState → Prop
  | same (s) : Eases s s
  | done : Eases .partly .done
  | ready : Eases .notMigrated .ready

end MigrationState

namespace Catalog

open OrdMap MigrationState

variable {c d : Catalog} {o : ModuleGraphOptions} {globs : GlobSet} {view : GraphView}
  {p : Package} {n version : String}

/-! ## States of single packages -/

lemma isMigrated_migrationState (own dependencies : Bool) :
    (migrationState own dependencies).IsMigrated ↔ own = true := by
  cases own <;> cases dependencies <;> simp [migrationState, IsMigrated]

/-- When the dependencies come to be moved and the package stays as it is, the state eases. -/
lemma eases_migrationState (own : Bool) {before after : Bool} (h : before = true → after = true) :
    (migrationState own before).Eases (migrationState own after) := by
  cases before with
  | true =>
    rw [h rfl]
    exact .same _
  | false =>
    cases after with
    | false => exact .same _
    | true =>
      cases own with
      | true => exact .done
      | false => exact .ready

/-- Whether the package of a name has been moved. -/
def isMoved (c : Catalog) (globs : GlobSet) (n : String) : Bool :=
  (c.full.get? n).any fun p => globs.accepts p.version

/-- Whether the selected ones of the declared dependencies of a package have been moved. -/
def dependenciesMoved (c : Catalog) (globs : GlobSet) (p : Package) : Bool :=
  (p.depends.filter c.selected.contains).all (c.isMoved globs)

/-- The state of a package of the full set. -/
def stateOf (c : Catalog) (globs : GlobSet) (p : Package) : MigrationState :=
  migrationState (globs.accepts p.version) (c.dependenciesMoved globs p)

lemma dependenciesMoved_iff :
    c.dependenciesMoved globs p = true ↔
      ∀ n ∈ p.depends.toList, n ∈ c.selected.toList → c.isMoved globs n = true := by
  simp only [dependenciesMoved, OrdSet.all, List.all_eq_true, OrdSet.mem_filter,
    OrdSet.contains_iff, and_imp]

/-- With fewer selected packages there are fewer dependencies to be moved. -/
lemma stateOf_eases (hfull : d.full = c.full)
    (hselected : ∀ n ∈ d.selected.toList, n ∈ c.selected.toList) (p : Package) :
    (c.stateOf globs p).Eases (d.stateOf globs p) := by
  refine eases_migrationState _ fun h => dependenciesMoved_iff.2 fun n hn hsel => ?_
  have hmoved := dependenciesMoved_iff.1 h n hn (hselected n hsel)
  rw [isMoved, hfull]
  exact hmoved

/-! ## States of a catalog -/

/-- The states of the selected packages, by their names. -/
def statesBy (c : Catalog) (globs : GlobSet) : NameMap MigrationState :=
  .ofList (c.packages.map fun p => (p.name, c.stateOf globs p))

/-- Among the selected packages the moved ones are told by their names. -/
lemma WellKeyed.contains_moved (h : c.WellKeyed) (hn : n ∈ c.selected.toList) :
    (OrdSet.ofList ((c.packages.filter fun p => globs.accepts p.version).map
      Package.name)).contains n = c.isMoved globs n := by
  obtain ⟨p, hp⟩ := h.selected hn
  obtain rfl := h.name hp
  rw [Bool.eq_iff_iff, OrdSet.contains_iff, OrdSet.mem_ofList, isMoved, hp, Option.any_some]
  constructor
  · intro hmem
    obtain ⟨q, hq, hname⟩ := List.mem_map.1 hmem
    obtain ⟨hq, haccepts⟩ := List.mem_filter.1 hq
    have hsame := (h.mem_packages.1 hq).1
    rw [hname, hp] at hsame
    obtain rfl := Option.some.inj hsame
    exact haccepts
  · exact fun haccepts =>
      List.mem_map_of_mem (List.mem_filter.2 ⟨h.mem_packages.2 ⟨hp, hn⟩, haccepts⟩)

lemma WellKeyed.migrationStates_eq (h : c.WellKeyed)
    (hversion : GlobSet.parse version = .ok globs) :
    c.migrationStates version = .ok (c.statesBy globs) := by
  rw [migrationStates, hversion]
  refine congrArg (fun l => Except.ok (OrdMap.ofList l)) (List.map_congr_left fun p hp => ?_)
  obtain ⟨hp, hn⟩ := h.mem_packages.1 hp
  have hown : c.isMoved globs p.name = globs.accepts p.version := by
    rw [isMoved, hp, Option.any_some]
  have hdepends : (p.depends.filter c.selected.contains).all (OrdSet.ofList
      ((c.packages.filter fun q => globs.accepts q.version).map Package.name)).contains =
      c.dependenciesMoved globs p := by
    rw [Bool.eq_iff_iff, dependenciesMoved_iff]
    simp only [OrdSet.all, List.all_eq_true, OrdSet.mem_filter, and_imp]
    refine forall₂_congr fun d _ => ?_
    rw [OrdSet.contains_iff]
    exact forall_congr' fun hd => by rw [h.contains_moved hd]
  rw [h.contains_moved hn, hown, hdepends]
  rfl

lemma WellKeyed.get?_statesBy (h : c.WellKeyed) {s : MigrationState} :
    (c.statesBy globs).get? n = some s ↔
      n ∈ c.selected.toList ∧ (c.full.get? n).map (c.stateOf globs) = some s :=
  h.get?_ofList_packages (c.stateOf globs)

lemma WellKeyed.mem_keys_statesBy (h : c.WellKeyed) :
    n ∈ (c.statesBy globs).keys ↔ n ∈ c.selected.toList := h.mem_keys_ofList_packages _

/-! ## Under filters -/

lemma WellKeyed.eases_statesBy (h : c.WellKeyed) (gs : List Filter) {s t : MigrationState}
    (hs : (c.statesBy globs).get? n = some s)
    (ht : ((c.filters gs).statesBy globs).get? n = some t) :
    s.Eases t := by
  obtain ⟨-, hs⟩ := h.get?_statesBy.1 hs
  obtain ⟨-, ht⟩ := (h.filters gs).get?_statesBy.1 ht
  obtain ⟨p, hp, rfl⟩ := Option.map_eq_some_iff.1 hs
  rw [full_filters, hp, Option.map_some] at ht
  rw [← Option.some.inj ht]
  exact stateOf_eases (full_filters c gs) (fun m hm => (mem_selected_filters.1 hm).1) p

/-! ## In views -/

/-- Marking gives each node the state of its name, where it has one. -/
lemma migration_withMigration {states : NameMap MigrationState} {marked : GraphView}
    (hstates : c.migrationStates version = .ok states)
    (h : c.withMigration version view = .ok marked) {x : GraphNode} (hx : x ∈ marked.nodes) :
    x.migration = some (states.getD x.name .notMigrated) := by
  obtain ⟨states', hstates', rfl⟩ := exists_states_of_withMigration h
  obtain rfl : states = states' := Except.ok.inj (hstates.symm.trans hstates')
  obtain ⟨y, -, rfl⟩ := List.mem_map.1 hx
  rfl

lemma migration_moduleGraph {states : NameMap MigrationState}
    (hstates : c.migrationStates version = .ok states) (ho : o.migration = some version)
    (h : c.moduleGraph o = .ok view) {x : GraphNode} (hx : x ∈ view.nodes) :
    x.migration = some (states.getD x.name .notMigrated) := by
  obtain ⟨plain, -, ⟨hnone, -⟩ | ⟨version, hsome, hmarked⟩⟩ := exists_plain_of_moduleGraph h
  · rw [ho] at hnone
    cases hnone
  · obtain rfl := Option.some.inj (ho.symm.trans hsome)
    exact migration_withMigration hstates hmarked hx

/-- **Migration states.** For a well-formed glob of versions, each selected package has a state and
no other name has one; the state is one of a migrated package just if the version of the package
itself matches. Further filters leave the state of a package that stays selected, or turn `partly`
into `done` or `notMigrated` into `ready`. The package view shows each selected package in its
state, and all others as not migrated. -/
theorem migrationStates_filters (l : List Package) (fs gs : List Filter) {version : String}
    {globs : GlobSet} (hversion : GlobSet.parse version = .ok globs) :
    ∃ before after, ((ofPackages l).filters fs).migrationStates version = .ok before ∧
      (((ofPackages l).filters fs).filters gs).migrationStates version = .ok after ∧
      (∀ n, n ∈ before.keys ↔ n ∈ ((ofPackages l).filters fs).selected.toList) ∧
      (∀ n, n ∈ after.keys ↔ n ∈ (((ofPackages l).filters fs).filters gs).selected.toList) ∧
      (∀ n s t, before.get? n = some s → after.get? n = some t → s.Eases t) ∧
      (∀ n p s, (ofPackages l).full.get? n = some p → before.get? n = some s →
        (s.IsMigrated ↔ globs.accepts p.version = true)) ∧
      ∀ o : ModuleGraphOptions, o.migration = some version →
        ((∃ view, ((ofPackages l).filters fs).moduleGraph o = .ok view) ↔
          ∃ names, GlobSet.parse o.pattern = .ok names) ∧
        ∀ view, ((ofPackages l).filters fs).moduleGraph o = .ok view → ∀ x ∈ view.nodes,
          (x.name ∈ ((ofPackages l).filters fs).selected.toList →
            x.migration = before.get? x.name) ∧
          (x.name ∉ ((ofPackages l).filters fs).selected.toList →
            x.migration = some .notMigrated) := by
  have h := wellKeyed_filters_ofPackages l fs
  have hstates := h.migrationStates_eq hversion
  refine ⟨_, _, hstates, (h.filters gs).migrationStates_eq hversion, fun n => h.mem_keys_statesBy,
    fun n => (h.filters gs).mem_keys_statesBy, fun n s t => h.eases_statesBy gs,
    fun n p s hp hs => ?_, fun o ho => ⟨?_, fun view hview x hx => ?_⟩⟩
  · obtain ⟨-, hs⟩ := h.get?_statesBy.1 hs
    rw [full_filters, hp, Option.map_some] at hs
    rw [← Option.some.inj hs]
    exact isMigrated_migrationState _ _
  · rw [exists_moduleGraph, and_iff_left]
    intro v hv
    obtain rfl : version = v := Option.some.inj (ho.symm.trans hv)
    exact ⟨globs, hversion⟩
  · rw [migration_moduleGraph hstates ho hview hx, OrdMap.getD]
    constructor
    · intro hn
      have hkey : x.name ∈ (statesBy _ globs).keys := h.mem_keys_statesBy.2 hn
      obtain ⟨s, hs⟩ := mem_keys_iff.1 hkey
      rw [hs, Option.getD_some]
    · intro hn
      cases hs : (statesBy _ globs).get? x.name with
      | none => rfl
      | some s => exact absurd (h.get?_statesBy.1 hs).1 hn

/-- Sales have been moved and base has not. Taxes come with sales, and `t` is the time that reading
each took. -/
def movedSales (t : Float) : List Package := [
  { path := ⟨"base"⟩, name := "base", manifest := .ofList [("version", .text "15.0")],
    durationSeconds := t },
  { path := ⟨"sale"⟩, name := "sale", depends := .ofList ["base"],
    manifest := .ofList [("version", .text "16.0")], durationSeconds := t },
  { path := ⟨"tax"⟩, name := "tax", depends := .ofList ["sale"],
    manifest := .ofList [("version", .text "16.0"), ("auto_install", .bool true)],
    durationSeconds := t }]

/-- What is shown of them when taxes have been filtered out. -/
def movedSalesView : GraphView where
  nodes := [
    { name := "base", base := true, migration := some .ready },
    { name := "sale", base := false, migration := some .partly },
    { name := "tax", base := false, autoIncluded := true, migration := some .notMigrated }]
  edges := [⟨"sale", "base", false⟩, ⟨"tax", "sale", false⟩]

lemma parse_sixteen : GlobSet.parse "16*" = .ok ⟨[[.char '1', .char '6', .anyRun]]⟩ :=
  GlobSet.parse_single (by decide +kernel)

lemma filters_movedSales : (ofPackages (movedSales 0)).filters [.names "*e"] =
    { ofPackages (movedSales 0) with selected := .ofList ["base", "sale"] } :=
  filters_names parse_endsWithE (by decide +kernel)

/-- When base is filtered out as well, sales are done. -/
lemma states_movedSales :
    ((ofPackages (movedSales 0)).filters [.names "*e"]).migrationStates "16*" =
      .ok (.ofList [("base", .ready), ("sale", .partly)]) ∧
    (((ofPackages (movedSales 0)).filters [.names "*e"]).filters
      [.names "s*"]).migrationStates "16*" = .ok (.ofList [("sale", .done)]) := by
  have hpattern : GlobSet.parse "s*" = .ok ⟨[[.char 's', .anyRun]]⟩ :=
    GlobSet.parse_single (by decide +kernel)
  have hagain : ({ ofPackages (movedSales 0) with
      selected := .ofList ["base", "sale"] } : Catalog).filters [.names "s*"] =
        { ofPackages (movedSales 0) with selected := .singleton "sale" } :=
    filters_names hpattern (by decide +kernel)
  rw [filters_movedSales, hagain, migrationStates, migrationStates, parse_sixteen]
  exact ⟨congrArg Except.ok (OrdMap.ext_entries (by decide +kernel)),
    congrArg Except.ok (OrdMap.ext_entries (by decide +kernel))⟩

lemma moduleGraph_movedSales :
    ((ofPackages (movedSales 0)).filters [.names "*e"]).moduleGraph
      { migration := some "16*", full := true } = .ok movedSalesView := by
  have hplain : ((ofPackages (movedSales 0)).filters [.names "*e"]).moduleView
      { migration := some "16*", full := true } = .ok { movedSalesView with
        nodes := movedSalesView.nodes.map fun n => { n with migration := none } } := by
    rw [filters_movedSales, moduleView, GraphOptions.select_eq GlobSet.parse_star,
      GraphOptions.matching_star]
    generalize (0 : Float) = t
    cbv
  rw [moduleGraph, hplain]
  simp only [bind, Except.bind, withMigration, states_movedSales.1]
  rfl

theorem migrationStates_filters_movedSales :
    GlobSet.parse "16*" = .ok ⟨[[.char '1', .char '6', .anyRun]]⟩ ∧
    MigrationState.Eases .partly .done ∧
    "tax" ∉ ((ofPackages (movedSales 0)).filters [.names "*e"]).selected.toList ∧
    ∀ x ∈ movedSalesView.nodes, x.name = "tax" → x.migration = some .notMigrated := by
  obtain ⟨before, after, hbefore, hafter, hkeys, -, heases, -, hviews⟩ :=
    migrationStates_filters (movedSales 0) [.names "*e"] [.names "s*"] parse_sixteen
  obtain rfl := Except.ok.inj (states_movedSales.1.symm.trans hbefore)
  obtain rfl := Except.ok.inj (states_movedSales.2.symm.trans hafter)
  have htax := (hkeys "tax").not.1 (by decide)
  obtain ⟨-, hnodes⟩ := hviews { migration := some "16*", full := true } rfl
  exact ⟨parse_sixteen, heases "sale" _ _ rfl rfl, htax, fun x hx hname =>
    (hnodes _ moduleGraph_movedSales x hx).2 (hname ▸ htax)⟩

end Catalog

end AddonAtlas
