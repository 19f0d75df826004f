import AddonAtlas.Files.Tree
import AddonAtlas.Proofs.Files.Components
import AddonAtlas.Proofs.Ordered.Lookup

/-!
Where paths lead in a tree of files.

A path is followed along its steps. Fillers between the slashes matter only at the end of a path,
where they ask for a directory; so two spellings of a path lead to the same place unless just one
of them ends in a filler.
-/

namespace AddonAtlas.FileTree

open AddonAtlas.Path

variable {t : FileTree} {p q : Path} {here : Place} {n : String} {c : ByteArray}

/-! ## Walking -/

/-- Follow components from a directory on. -/
def walk (t : FileTree) : Place → List Component → Option Place
  | here, [] => some here
  | here, c :: r =>
    if t.isDirectoryAt here then
      match c with
      | .root => none
      | .here => walk t here r
      | .up => walk t here.dropLast r
      | .name s => walk t (here ++ [s]) r
    else none

lemma walk_append (t : FileTree) (here : Place) (l r : List Component) :
    t.walk here (l ++ r) = (t.walk here l).bind fun p => t.walk p r := by
  fun_induction walk t here l with
  | case1 here => rfl
  | case2 here r' hdir => simp [walk, hdir]
  | case3 here r' hdir ih => simp [walk, hdir, ih]
  | case4 here r' hdir ih => simp [walk, hdir, ih]
  | case5 here r' hdir s ih => simp [walk, hdir, ih]
  | case6 here c r' hdir => simp [walk, hdir]

/-- Names lead down. -/
lemma walk_names {l : List String} {place : Place}
    (h : t.walk here (l.map .name) = some place) : place = here ++ l := by
  induction l generalizing here with
  | nil =>
    obtain rfl := Option.some.inj h
    simp
  | cons s l ih =>
    simp only [List.map_cons, walk] at h
    split at h
    · simpa using ih h
    · cases h

lemma getLast?_any_of_inner_nil {l : List String} (h : inner l = []) (hne : l ≠ []) :
    l.getLast?.any isFiller = true := by
  have hlast := List.getLast?_eq_some_getLast hne
  rw [hlast, Option.any_some]
  by_contra hfill
  rw [Bool.not_eq_true] at hfill
  obtain ⟨a, ha⟩ := List.getLast?_eq_some_iff.1 hlast
  rw [ha, inner_append, inner_cons_of_not_filler hfill] at h
  simp at h

/-- Following segments is walking their components, and then asking for a directory where the last
segment is a filler. -/
lemma follow_eq_walk (t : FileTree) (here : Place) (segs : List String) :
    t.follow here segs = (t.walk here (inner segs)).filter
      fun p => !segs.getLast?.any isFiller || t.isDirectoryAt p := by
  induction segs generalizing here with
  | nil => simp [follow, walk, Path.inner, Option.filter]
  | cons s r ih =>
    have hlast (h : r ≠ []) : (s :: r).getLast? = r.getLast? := by
      obtain ⟨a, l, rfl⟩ := List.exists_cons_of_ne_nil h
      rfl
    cases hdir : t.isDirectoryAt here with
    | false =>
      rw [follow, hdir]
      cases hinner : inner (s :: r) with
      | nil =>
        have hany := getLast?_any_of_inner_nil hinner (List.cons_ne_nil s r)
        simp [walk, hany, hdir, Option.filter]
      | cons c l => simp [walk, hdir]
    | true =>
      by_cases hfill : isFiller s = true
      · have hstep : t.follow here (s :: r) = t.follow here r := by
          have hs : (s = "" || s = ".") = true := hfill
          simp [follow, hdir, hs]
        rw [hstep, ih, inner_cons_filler hfill]
        by_cases hr : r = []
        · subst hr
          simp [walk, Path.inner, hdir, Option.filter]
        · rw [hlast hr]
      · rw [Bool.not_eq_true] at hfill
        have hany : (s :: r).getLast?.any isFiller = r.getLast?.any isFiller := by
          by_cases hr : r = []
          · simp [hr, hfill]
          · rw [hlast hr]
        have hs : (s = "" || s = ".") = false := hfill
        rw [hany, inner_cons_of_not_filler hfill]
        by_cases hup : s = ".."
        · simp [follow, walk, hdir, hup, ih]
        · simp [follow, walk, hdir, hs, hup, ih]

/-! ## Places of paths -/

/-- The way from the top to where a path starts: an absolute path starts there. -/
def start (t : FileTree) (p : Path) : List Component := if p.isAbsolute then [] else inner t.here

/-- The way from the top to where a path leads. -/
def route (t : FileTree) (p : Path) : List Component := t.start p ++ p.steps

lemma start_congr (h : p.lead = q.lead) : t.start p = t.start q := by
  have habs : p.isAbsolute = q.isAbsolute := by
    rw [Bool.eq_iff_iff, isAbsolute_iff, isAbsolute_iff, h]
  rw [start, start, habs]

lemma route_congr (h : p.key = q.key) : t.route p = t.route q := by
  obtain ⟨hlead, hsteps⟩ := lead_steps_of_key h
  rw [route, route, start_congr hlead, hsteps]

lemma inner_fromTop (t : FileTree) (p : Path) : inner (t.fromTop p) = t.route p := by
  unfold fromTop route start
  split
  · rfl
  · exact inner_append _ _

lemma getLast?_fromTop (t : FileTree) (p : Path) :
    (t.fromTop p).getLast? = p.segments.getLast? := by
  unfold fromTop
  split
  · rfl
  · exact List.getLast?_append_of_ne_nil _ (segments_ne_nil p)

lemma place?_eq (t : FileTree) (hp : p.text ≠ "") :
    t.place? p =
      (t.walk [] (t.route p)).filter fun place => !p.trails || t.isDirectoryAt place := by
  rw [place?, if_neg (by simpa using hp), follow_eq_walk, inner_fromTop, getLast?_fromTop]
  rfl

lemma place?_of_empty (h : p.text = "") : t.place? p = none := by
  simp [place?, h]

lemma text_ne_of_place? (h : t.place? p = some here) : p.text ≠ "" := fun hp => by
  rw [place?_of_empty hp] at h
  cases h

lemma walk_of_place? (h : t.place? p = some here) : t.walk [] (t.route p) = some here := by
  rw [place?_eq t (text_ne_of_place? h), Option.filter_eq_some_iff] at h
  exact h.1

/-- Two spellings of a path lead to the same place if both or none of them end in a filler. -/
lemma place?_congr (hkey : p.key = q.key) (htrails : p.trails = q.trails) :
    t.place? p = t.place? q := by
  have hcomps := components_of_key hkey
  by_cases hp : p.text = ""
  · have hq : q.text = "" := text_eq_empty_of_components (by
      rw [← hcomps, show p = ⟨""⟩ from congrArg Path.mk hp, components_empty])
    rw [place?_of_empty hp, place?_of_empty hq]
  · have hq : q.text ≠ "" := fun hq => hp (text_eq_empty_of_components (by
      rw [hcomps, show q = ⟨""⟩ from congrArg Path.mk hq, components_empty]))
    rw [place?_eq t hp, place?_eq t hq, route_congr hkey, htrails]

lemma trails_of_isName (h : IsName n) : (Path.mk n).trails = false := by
  simp [trails, segments_of_isName h, isFiller_of_isName h]

/-- Where the working directory is the top, a name leads into it. -/
lemma place?_of_isName (hhere : t.here = []) (hn : IsName n) :
    t.place? ⟨n⟩ = if t.isDirectoryAt [] then some [n] else none := by
  have hroute : t.route ⟨n⟩ = [.name n] := by
    rw [route, start, hhere, isAbsolute_of_isName hn, steps_of_isName hn]
    rfl
  rw [place?_eq t hn.1, hroute, trails_of_isName hn]
  cases hdir : t.isDirectoryAt [] <;> simp [walk, hdir]

/-- What is joined to a path leads on from there, unless it is absolute itself. -/
lemma route_join (hn : (Path.mk n).isAbsolute = false) (hp : p.text ≠ "") :
    t.route (p.join n) = t.route p ++ (Path.mk n).steps := by
  rw [route, route, start_congr (lead_join hn hp), steps_join p hn, List.append_assoc]

/-- A name behind the way to a path leads into the directory that the path leads to. -/
lemma place?_of_route (hroute : t.route q = t.route p ++ [.name n]) (htrails : q.trails = false)
    (hp : p.text ≠ "") (hq : q.text ≠ "") :
    t.place? q = (t.place? p).bind fun here =>
      if t.isDirectoryAt here then some (here ++ [n]) else none := by
  rw [place?_eq t hq, place?_eq t hp, htrails, hroute, walk_append]
  cases hwalk : t.walk [] (t.route p) with
  | none => rfl
  | some here =>
    cases hdir : t.isDirectoryAt here <;> simp [walk, hdir, Option.filter]
    split <;> simp_all

lemma place?_join (t : FileTree) (hn : IsName n) (hp : p.text ≠ "") :
    t.place? (p.join n) = (t.place? p).bind fun here =>
      if t.isDirectoryAt here then some (here ++ [n]) else none := by
  have habs := isAbsolute_of_isName hn
  refine place?_of_route ?_ ?_ hp (text_join_ne (.inl hp))
  · rw [route_join habs hp, steps_of_isName hn]
  · rw [trails_join p habs, trails_of_isName hn]

/-! ## Files and directories -/

lemma readBytes?_eq_some_iff :
    t.readBytes? p = some c ↔
      ∃ here, t.place? p = some here ∧ t.isDirectoryAt here = false ∧
        t.files.get? here = some c := by
  unfold readBytes? lookup node?
  cases t.place? p with
  | none => simp
  | some here =>
    cases hdir : t.isDirectoryAt here with
    | true => simp [hdir]
    | false => cases hfile : t.files.get? here <;> simp [hdir, hfile]

lemma isFile_iff : t.isFile p = true ↔ ∃ c, t.readBytes? p = some c := by
  unfold isFile readBytes?
  cases t.lookup p with
  | none => simp
  | some node => cases node <;> simp

lemma isDirectory_iff :
    t.isDirectory p = true ↔ ∃ here, t.place? p = some here ∧ t.isDirectoryAt here = true := by
  unfold isDirectory lookup node?
  cases t.place? p with
  | none => simp
  | some here =>
    cases hdir : t.isDirectoryAt here with
    | true => simp [hdir]
    | false => cases hfile : t.files.get? here <;> simp [hdir, hfile]

lemma readBytes?_of_isDirectory (h : t.isDirectory p = true) : t.readBytes? p = none := by
  obtain ⟨here, hplace, hdir⟩ := isDirectory_iff.1 h
  simp [readBytes?, lookup, node?, hplace, hdir]

/-- Where directories are depends on no file. -/
lemma isDirectory_of_directories {u : FileTree} (h : t.directories = u.directories)
    (hhere : t.here = u.here) (p : Path) : t.isDirectory p = u.isDirectory p := by
  have hat (here : Place) : t.isDirectoryAt here = u.isDirectoryAt here := by
    rw [isDirectoryAt, isDirectoryAt, h]
  have hfollow (here : Place) (segs : List String) : t.follow here segs = u.follow here segs := by
    induction segs generalizing here with
    | nil => rfl
    | cons s r ih => simp only [follow, hat, ih]
  rw [Bool.eq_iff_iff, isDirectory_iff, isDirectory_iff]
  simp only [place?, fromTop, hhere, hfollow, hat]

/-- What ends in a filler is no file. -/
lemma trails_of_isFile (h : t.isFile p = true) : p.trails = false := by
  obtain ⟨c, hc⟩ := isFile_iff.1 h
  obtain ⟨here, hplace, hdir, -⟩ := readBytes?_eq_some_iff.1 hc
  rw [place?_eq t (text_ne_of_place? hplace), Option.filter_eq_some_iff] at hplace
  simpa [hdir] using hplace.2

lemma readBytes?_of_trails (h : p.trails = true) : t.readBytes? p = none := by
  cases hc : t.readBytes? p with
  | none => rfl
  | some c =>
    rw [trails_of_isFile (isFile_iff.2 ⟨c, hc⟩)] at h
    cases h

lemma lookup_congr (hkey : p.key = q.key) (htrails : p.trails = q.trails) :
    t.lookup p = t.lookup q := by rw [lookup, lookup, place?_congr hkey htrails]

lemma isFile_congr (hkey : p.key = q.key) (htrails : p.trails = q.trails) :
    t.isFile p = t.isFile q := by rw [isFile, isFile, lookup_congr hkey htrails]

lemma isDirectory_congr (hkey : p.key = q.key) (htrails : p.trails = q.trails) :
    t.isDirectory p = t.isDirectory q := by
  rw [isDirectory, isDirectory, lookup_congr hkey htrails]

lemma readBytes?_congr (hkey : p.key = q.key) (htrails : p.trails = q.trails) :
    t.readBytes? p = t.readBytes? q := by
  rw [readBytes?, readBytes?, lookup_congr hkey htrails]

lemma readText?_congr (hkey : p.key = q.key) (htrails : p.trails = q.trails) :
    t.readText? p = t.readText? q := by
  rw [readText?, readText?, readBytes?_congr hkey htrails]

lemma isFile_of_readText? {text : String} (h : t.readText? p = some text) : t.isFile p = true := by
  obtain ⟨c, hc, -⟩ := Option.bind_eq_some_iff.1 h
  exact isFile_iff.2 ⟨c, hc⟩

lemma readText?_of_toUTF8 {text : String} (h : t.readBytes? p = some text.toUTF8) :
    t.readText? p = some text := by
  rw [readText?, h, Option.bind_some, String.toUTF8_eq_toByteArray, Text.fromUTF8?_toByteArray]

end AddonAtlas.FileTree
