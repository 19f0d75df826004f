import AddonAtlas.Discovery.Imports
import AddonAtlas.Proofs.Files.Directories

/-!
What local imports resolve to.

Every file that a local import pulls in lies below the directory it is resolved from, unless a
segment of the import is an absolute path: such a segment goes on from the top. (Comments between
the names of a dotted path belong to its text, so its segments may hold slashes.) The directory
counts by its components only: two spellings of it give the same files. Two trees resolve an import
without absolute segments alike if each file that it pulls in is there in both.
-/

namespace AddonAtlas

open AddonAtlas.Path

namespace Path

variable {d e : Path} {s : String}

lemma join_of_isAbsolute (h : (Path.mk s).isAbsolute = true) (d : Path) : d.join s = ⟨s⟩ := by
  have hs : (s.toList.head? == some '/') = true := h
  simp [join, hs]

/-- Joining to two spellings of a path. -/
lemma join_congr (h : d.components = e.components) (s : String) :
    (d.join s).key = (e.join s).key ∧ (d.join s).trails = (e.join s).trails := by
  cases habs : (Path.mk s).isAbsolute with
  | true =>
    rw [join_of_isAbsolute habs, join_of_isAbsolute habs]
    exact ⟨rfl, rfl⟩
  | false =>
    by_cases hd : d.text = ""
    · obtain rfl : d = ⟨""⟩ := congrArg Path.mk hd
      have he := text_eq_empty_of_components (h.symm.trans components_empty)
      obtain rfl : e = ⟨""⟩ := congrArg Path.mk he
      exact ⟨rfl, rfl⟩
    · have he : e.text ≠ "" := fun he => hd (text_eq_empty_of_components (by
        rw [h, show e = ⟨""⟩ from congrArg Path.mk he, components_empty]))
      obtain ⟨hlead, hsteps⟩ := lead_steps_of_key (key_of_components h)
      refine ⟨key_of_components ?_, by rw [trails_join d habs, trails_join e habs]⟩
      rw [components_eq, components_eq (e.join s), lead_join habs hd, lead_join habs he,
        steps_join d habs, steps_join e habs, hlead, hsteps]

/-- Where there are no steps up, the steps are names. -/
lemma inner_of_no_up {l : List String} (h : ∀ x ∈ l, x ≠ "..") :
    inner l = (l.filter fun x => !isFiller x).map .name := by
  induction l with
  | nil => rfl
  | cons x r ih =>
    have hr := ih fun y hy => h y (List.mem_cons_of_mem x hy)
    cases hfill : isFiller x with
    | true => rw [inner_cons_filler hfill, hr, List.filter_cons_of_neg (by simp [hfill])]
    | false =>
      rw [inner_cons_of_not_filler hfill, if_neg (h x List.mem_cons_self), hr,
        List.filter_cons_of_pos (by simp [hfill]), List.map_cons]

lemma ne_of_dotless {x : String} (h : '.' ∉ s.toList) (hx : x ∈ (Path.mk s).segments) :
    x ≠ "." ∧ x ≠ ".." := by
  have hsub := subset_of_mem_segments hx
  constructor <;> rintro rfl <;> exact h (hsub (by decide))

lemma lead_of_dotless (h : '.' ∉ s.toList) : (Path.mk s).lead ≠ [.here] := by
  unfold lead
  split
  · simp
  · rw [if_neg fun hhead => (ne_of_dotless h (List.mem_of_head? hhead)).1 rfl]
    simp

lemma steps_of_dotless (h : '.' ∉ s.toList) :
    ∃ l : List String, (Path.mk s).steps = l.map .name :=
  ⟨_, inner_of_no_up fun _ hx => (ne_of_dotless h hx).2⟩

/-- Where what is joined to a path begins: at the path, or at the top if it is absolute itself. -/
def base (d : Path) (s : String) : Path := if (Path.mk s).isAbsolute then ⟨"/"⟩ else d

lemma components_slash : (Path.mk "/").components = [.root] := by
  rw [components, segments_slash]
  rfl

lemma components_join_base (d : Path) (h : (Path.mk s).lead ≠ [.here]) :
    (d.join s).components = (d.base s).components ++ (Path.mk s).steps := by
  unfold base
  cases habs : (Path.mk s).isAbsolute with
  | true =>
    rw [join_of_isAbsolute habs, if_pos rfl, components_slash, components_eq,
      isAbsolute_iff.1 habs]
  | false =>
    refine components_join d habs ?_
    rw [lead, habs] at h ⊢
    split_ifs at h ⊢ <;> simp_all

/-- A text without dots is a way down. -/
lemma components_join_dotless (d : Path) (h : '.' ∉ s.toList) :
    ∃ l : List String, (d.join s).components = (d.base s).components ++ l.map .name := by
  obtain ⟨l, hl⟩ := steps_of_dotless h
  exact ⟨l, by rw [components_join_base d (lead_of_dotless h), hl]⟩

/-- So is the name of a source that is written behind it. -/
lemma components_join_source (d : Path) (h : '.' ∉ s.toList) :
    ∃ l : List String, l ≠ [] ∧
      (d.join (s ++ ".py")).components = (d.base s).components ++ l.map .name := by
  obtain ⟨b, hlast⟩ : ∃ b, (Path.mk s).segments.getLast? = some b :=
    ⟨_, List.getLast?_eq_some_getLast (segments_ne_nil _)⟩
  have hb := List.mem_of_getLast? hlast
  have hname : IsName (b ++ ".py") := by
    have hslash := not_mem_of_mem_segments hb
    have hend : (b ++ ".py").toList.getLast? = some 'y' := by simp
    refine ⟨?_, ?_, ?_, by simpa using hslash⟩ <;>
      exact fun he => absurd (he ▸ hend) (by decide)
  rcases text_of_getLast? hlast with hs | ⟨a, hs⟩
  · obtain rfl : s = b := hs
    refine ⟨[s ++ ".py"], by simp, ?_⟩
    have habs : (Path.mk s).isAbsolute = false := by
      rw [isAbsolute, beq_eq_false_iff_ne]
      exact fun hhead => not_mem_of_mem_segments hb (List.mem_of_head? hhead)
    rw [components_join_name d hname, base, habs]
    rfl
  · obtain rfl : s = a ++ "/" ++ b := hs
    obtain ⟨l, hl⟩ := steps_of_dotless (s := a) (by simp_all)
    have hlead := lead_append_slash a (b ++ ".py") b
    have hbase : d.base (a ++ "/" ++ (b ++ ".py")) = d.base (a ++ "/" ++ b) := by
      have habs : (Path.mk (a ++ "/" ++ (b ++ ".py"))).isAbsolute =
          (Path.mk (a ++ "/" ++ b)).isAbsolute := by
        rw [Bool.eq_iff_iff, isAbsolute_iff, isAbsolute_iff, hlead]
      rw [base, base, habs]
    refine ⟨l ++ [b ++ ".py"], by simp, ?_⟩
    rw [String.append_assoc, components_join_base d (hlead ▸ lead_of_dotless h), hbase,
      steps_append, hl, steps_of_isName hname]
    simp

end Path

namespace Import

variable {t : FileTree} {entryPoint : String} {d e f g : Path} {segs : List String}

/-- A file at or below a directory, as a chain of names says. -/
structure Below (t : FileTree) (d f : Path) (l : List String) : Prop where
  isFile : t.isFile f = true
  components : f.components = d.components ++ l.map .name

lemma Below.trans {l m : List String} (hd : e.components = d.components ++ l.map .name)
    (h : Below t e f m) : Below t d f (l ++ m) :=
  ⟨h.isFile, by rw [h.components, hd, List.map_append, List.append_assoc]⟩

/-- What a segment leads to: its source, its entry point, or a file that the next ones lead to from
below it. -/
lemma cases_mem_resolveSegments {s : String} {r : List String}
    (h : f ∈ resolveSegments t entryPoint d (s :: r)) :
    f = d.join (s ++ ".py") ∧ t.isFile f = true ∨
      f = (d.join s).join entryPoint ∧ t.isFile f = true ∨
      f ∈ resolveSegments t entryPoint (d.join s) r := by
  simp only [resolveSegments] at h
  split_ifs at h with hempty hsource hinit hdir
  · simp at h
  · obtain rfl := List.mem_singleton.1 h
    exact .inl ⟨rfl, hsource⟩
  · rcases List.mem_cons.1 h with rfl | h
    · exact .inr (.inl ⟨rfl, hinit⟩)
    · exact .inr (.inr h)
  · exact .inr (.inr h)
  · simp at h

/-- What segments lead to lies below the directory that they start from, or below the top if one of
them is absolute. -/
lemma mem_resolveSegments (hentry : IsName entryPoint) (hsegs : ∀ s ∈ segs, '.' ∉ s.toList)
    (h : f ∈ resolveSegments t entryPoint d segs) :
    ∃ top l, (top = d ∨ top = ⟨"/"⟩ ∧ ∃ s ∈ segs, (Path.mk s).isAbsolute = true) ∧ l ≠ [] ∧
      Below t top f l := by
  induction segs generalizing d with
  | nil => simp [resolveSegments] at h
  | cons s r ih =>
    have hs := hsegs s List.mem_cons_self
    have hbase : d.base s = d ∨
        d.base s = ⟨"/"⟩ ∧ ∃ x ∈ s :: r, (Path.mk x).isAbsolute = true := by
      unfold base
      split
      · rename_i habs
        exact .inr ⟨rfl, s, List.mem_cons_self, habs⟩
      · exact .inl rfl
    obtain ⟨l, hl⟩ := components_join_dotless d hs
    obtain ⟨rfl, hsource⟩ | ⟨rfl, hinit⟩ | h := cases_mem_resolveSegments h
    · obtain ⟨l, hl, hcomps⟩ := components_join_source d hs
      exact ⟨d.base s, l, hbase, hl, hsource, hcomps⟩
    · refine ⟨d.base s, l ++ [entryPoint], hbase, by simp, hinit, ?_⟩
      rw [components_join_name _ hentry, hl]
      simp
    · obtain ⟨top, m, htop, hm, hbelow⟩ := ih (fun x hx => hsegs x (List.mem_cons_of_mem s hx)) h
      rcases htop with rfl | ⟨rfl, x, hx, habs⟩
      · exact ⟨d.base s, l ++ m, hbase, by simp [hm], hbelow.trans hl⟩
      · exact ⟨⟨"/"⟩, m, .inr ⟨rfl, x, List.mem_cons_of_mem s hx, habs⟩, hm, hbelow⟩

lemma mem_resolveSegments_of_staysBelow (hentry : IsName entryPoint)
    (hsegs : ∀ s ∈ segs, '.' ∉ s.toList) (hstays : ∀ s ∈ segs, (Path.mk s).isAbsolute = false)
    (h : f ∈ resolveSegments t entryPoint d segs) : ∃ l, l ≠ [] ∧ Below t d f l := by
  obtain ⟨top, l, rfl | ⟨-, s, hs, habs⟩, hl, hbelow⟩ := mem_resolveSegments hentry hsegs h
  · exact ⟨l, hl, hbelow⟩
  · rw [hstays s hs] at habs
    cases habs

/-- Two spellings of a directory resolve an import to the same files. -/
lemma map_key_resolveSegments (h : d.components = e.components) (segs : List String) :
    (resolveSegments t entryPoint d segs).map Path.key =
      (resolveSegments t entryPoint e segs).map Path.key := by
  induction segs generalizing d e with
  | nil => rfl
  | cons s r ih =>
    have hsource := join_congr h (s ++ ".py")
    have hbelow := join_congr h s
    have hinit := join_congr (components_of_key hbelow.1) entryPoint
    have hrest := ih (components_of_key hbelow.1)
    simp only [resolveSegments, FileTree.isFile_congr hsource.1 hsource.2,
      FileTree.isFile_congr hinit.1 hinit.2, FileTree.isDirectory_congr hbelow.1 hbelow.2]
    split_ifs <;> simp_all

/-! ## Imports -/

/-- The segments of an import behind its leading dots, up to the first one that is empty. -/
def segmentsOf (path : String) : List String :=
  ((String.ofList (path.toList.dropWhile (· == '.'))).splitOn ".").takeWhile (· ≠ "")

lemma dotless_of_mem_segmentsOf {path s : String} (h : s ∈ segmentsOf path) : '.' ∉ s.toList :=
  (Text.pieces_of_splitOn_string (c := '.') (List.takeWhile_subset _ h)).1

/-- An empty segment ends the chain. -/
lemma resolveSegments_takeWhile (d : Path) (segs : List String) :
    resolveSegments t entryPoint d (segs.takeWhile (· ≠ "")) =
      resolveSegments t entryPoint d segs := by
  induction segs generalizing d with
  | nil => rfl
  | cons x r ih =>
    by_cases hx : x = ""
    · rw [List.takeWhile_cons_of_neg (by simp [hx])]
      simp [resolveSegments, hx]
    · rw [List.takeWhile_cons_of_pos (by simpa using hx)]
      simp only [resolveSegments, ih]

lemma resolve_eq (d : Path) (path : String) :
    resolve t entryPoint d path = resolveSegments t entryPoint d (segmentsOf path) :=
  (resolveSegments_takeWhile d _).symm

/-- An import no segment of which is an absolute path. -/
def StaysBelow (path : String) : Prop :=
  ∀ s ∈ segmentsOf path, (Path.mk s).isAbsolute = false

lemma mem_resolve (hentry : IsName entryPoint) {path : String}
    (h : f ∈ resolve t entryPoint d path) :
    ∃ top l, (top = d ∨ top = ⟨"/"⟩ ∧ ¬ StaysBelow path) ∧ l ≠ [] ∧ Below t top f l := by
  rw [resolve_eq] at h
  obtain ⟨top, l, htop, hl, hbelow⟩ :=
    mem_resolveSegments hentry (fun _ => dotless_of_mem_segmentsOf) h
  refine ⟨top, l, htop.imp_right fun ⟨hroot, s, hs, habs⟩ => ⟨hroot, fun hstays => ?_⟩, hl, hbelow⟩
  rw [hstays s hs] at habs
  cases habs

lemma map_key_resolve (h : d.components = e.components) (path : String) :
    (resolve t entryPoint d path).map Path.key = (resolve t entryPoint e path).map Path.key :=
  map_key_resolveSegments h _

/-! ## Files below a directory -/

lemma Below.lead_steps {l : List String} (h : Below t d f l) :
    f.lead = d.lead ∧ f.steps = d.steps ++ l.map .name := by
  have hcomps := h.components
  rw [components_eq, components_eq d, List.append_assoc] at hcomps
  refine eq_of_lead_append hcomps (fun _ => mem_steps) fun c hc => ?_
  rcases List.mem_append.1 hc with hc | hc
  · exact mem_steps hc
  · obtain ⟨n, -, rfl⟩ := List.mem_map.1 hc
    exact ⟨by simp, by simp⟩

/-- A file below a directory stands below the place of the directory. -/
lemma Below.place? {l : List String} (h : Below t d f l) :
    ∃ top c, t.walk [] (t.route d) = some top ∧ t.place? f = some (top ++ l) ∧
      t.files.get? (top ++ l) = some c := by
  obtain ⟨c, hc⟩ := FileTree.isFile_iff.1 h.isFile
  obtain ⟨here, hplace, -, hfile⟩ := FileTree.readBytes?_eq_some_iff.1 hc
  have hroute : t.route f = t.route d ++ l.map .name := by
    rw [FileTree.route, FileTree.route, FileTree.start_congr h.lead_steps.1, h.lead_steps.2,
      List.append_assoc]
  have hwalk := FileTree.walk_of_place? hplace
  rw [hroute, FileTree.walk_append, Option.bind_eq_some_iff] at hwalk
  obtain ⟨top, htop, hrest⟩ := hwalk
  obtain rfl := FileTree.walk_names hrest
  exact ⟨top, c, htop, hplace, hfile⟩

/-- Files below a directory that stand at one place are one path. -/
lemma Below.key_of_place? {l m : List String} (hf : Below t d f l) (hg : Below t d g m)
    (h : t.place? f = t.place? g) : f.key = g.key := by
  obtain ⟨top, -, htop, hfplace, -⟩ := hf.place?
  obtain ⟨top', -, htop', hgplace, -⟩ := hg.place?
  rw [htop] at htop'
  obtain rfl := Option.some.inj htop'
  rw [hfplace, hgplace, Option.some.injEq, List.append_cancel_left_eq] at h
  exact key_of_components (by rw [hf.components, hg.components, h])

lemma Below.parent? {l : List String} (h : Below t d f l) (hl : l ≠ []) :
    ∃ q, f.parent? = some q ∧ q.components = d.components ++ l.dropLast.map .name := by
  obtain ⟨n, hlast, hfill⟩ := getLast?_segments (FileTree.trails_of_isFile h.isFile)
  have hcomps := getLast?_components hlast hfill
  rw [h.components, List.getLast?_append_of_ne_nil _ (by simpa using hl),
    List.getLast?_map] at hcomps
  have hup : n ≠ ".." := by
    rintro rfl
    simp at hcomps
  have hname := isName_of_mem_segments (List.mem_of_getLast? hlast) hfill hup
  obtain ⟨q, hq, hqc⟩ := components_parent? hlast hname
  refine ⟨q, hq, ?_⟩
  rw [hqc, h.components, List.dropLast_append_of_ne_nil (by simpa using hl), List.map_dropLast]

/-! ## Two trees -/

variable {u v : FileTree}

lemma isFile_of_mem_resolveSegments (h : f ∈ resolveSegments t entryPoint d segs) :
    t.isFile f = true := by
  induction segs generalizing d with
  | nil => simp [resolveSegments] at h
  | cons s r ih =>
    obtain ⟨-, hsource⟩ | ⟨-, hinit⟩ | h := cases_mem_resolveSegments h
    · exact hsource
    · exact hinit
    · exact ih h

/-- A file that segments lead to stands below a directory, in whichever tree it is. -/
lemma isDirectory_of_mem_resolveSegments (hentry : IsName entryPoint)
    (hsegs : ∀ s ∈ segs, (Path.mk s).isAbsolute = false) (hd : d.text ≠ "")
    (h : f ∈ resolveSegments t entryPoint d segs) (hf : u.isFile f = true) :
    u.isDirectory d = true := by
  induction segs generalizing d with
  | nil => simp [resolveSegments] at h
  | cons s r ih =>
    have hs := hsegs s List.mem_cons_self
    have hsource : (Path.mk (s ++ ".py")).isAbsolute = false := by
      by_cases hempty : s = ""
      · rw [hempty]
        rfl
      · rw [isAbsolute_append hempty, hs]
    have hbelow (hx : u.isDirectory (d.join s) = true) : u.isDirectory d = true :=
      FileTree.isDirectory_of_hasNode_join hs hd (FileTree.hasNode_of_isDirectory hx)
    obtain ⟨rfl, -⟩ | ⟨rfl, -⟩ | h := cases_mem_resolveSegments h
    · exact FileTree.isDirectory_of_hasNode_join hsource hd (FileTree.hasNode_of_isFile hf)
    · exact hbelow (FileTree.isDirectory_of_hasNode_join (isAbsolute_of_isName hentry)
        (text_join_ne (.inl hd)) (FileTree.hasNode_of_isFile hf))
    · exact hbelow (ih (fun x hx => hsegs x (List.mem_cons_of_mem s hx)) (text_join_ne (.inl hd)) h)

/-- Segments lead to the same files in two trees if each file that they lead to in one of them is
a file in the other one, too. -/
lemma resolveSegments_congr (hentry : IsName entryPoint)
    (hsegs : ∀ s ∈ segs, (Path.mk s).isAbsolute = false)
    (hu : ∀ f ∈ resolveSegments u entryPoint d segs, v.isFile f = true)
    (hv : ∀ f ∈ resolveSegments v entryPoint d segs, u.isFile f = true) :
    resolveSegments u entryPoint d segs = resolveSegments v entryPoint d segs := by
  induction segs generalizing d with
  | nil => rfl
  | cons s r ih =>
    have hr : ∀ x ∈ r, (Path.mk x).isAbsolute = false := fun x hx =>
      hsegs x (List.mem_cons_of_mem s hx)
    simp only [resolveSegments] at hu hv ⊢
    by_cases hempty : s.isEmpty = true
    · rw [if_pos hempty, if_pos hempty]
    rw [if_neg hempty] at hu hv ⊢
    rw [if_neg hempty]
    have hbelow : (d.join s).text ≠ "" := text_join_ne (.inr (by simpa using hempty))
    -- a directory that is there only in one tree leads nowhere
    have hnil {t t' : FileTree} (ht' : t'.isDirectory (d.join s) = false)
        (h : ∀ f ∈ resolveSegments t entryPoint (d.join s) r, t'.isFile f = true) :
        resolveSegments t entryPoint (d.join s) r = [] :=
      List.eq_nil_iff_forall_not_mem.2 fun f hf => by
        rw [isDirectory_of_mem_resolveSegments hentry hr hbelow hf (h f hf)] at ht'
        cases ht'
    cases husource : u.isFile (d.join (s ++ ".py")) <;>
      cases hvsource : v.isFile (d.join (s ++ ".py")) <;>
      simp only [husource, hvsource, if_true, if_false, Bool.false_eq_true, List.mem_singleton,
        forall_eq] at hu hv ⊢
    · cases huinit : u.isFile ((d.join s).join entryPoint) <;>
        cases hvinit : v.isFile ((d.join s).join entryPoint) <;>
        simp only [huinit, hvinit, if_true, if_false, Bool.false_eq_true, List.forall_mem_cons,
          false_and, true_and] at hu hv ⊢
      · cases hudir : u.isDirectory (d.join s) <;> cases hvdir : v.isDirectory (d.join s) <;>
          simp only [hudir, hvdir, if_true, if_false, Bool.false_eq_true] at hu hv ⊢
        · exact (hnil hudir hv).symm
        · exact hnil hvdir hu
        · exact ih hr hu hv
      · rw [ih hr hu hv]

/-- An import pulls in the same files in two trees if each one is a file in both. -/
lemma resolve_congr (hentry : IsName entryPoint) {path : String} (hstays : StaysBelow path)
    (hu : ∀ f ∈ resolve u entryPoint d path, u.isFile f = v.isFile f)
    (hv : ∀ f ∈ resolve v entryPoint d path, u.isFile f = v.isFile f) :
    resolve u entryPoint d path = resolve v entryPoint d path := by
  rw [resolve_eq] at hu hv ⊢
  rw [resolve_eq]
  exact resolveSegments_congr hentry hstays
    (fun f hf => (hu f hf).symm.trans (isFile_of_mem_resolveSegments hf))
    fun f hf => (hv f hf).trans (isFile_of_mem_resolveSegments hf)

end Import

end AddonAtlas
