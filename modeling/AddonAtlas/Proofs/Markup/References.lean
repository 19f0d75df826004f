import AddonAtlas.Markup.Records
import AddonAtlas.Proofs.Ordered.Lookup
import AddonAtlas.Proofs.Text.Split

/-!
Records of a document, and the packages that the document refers to.

Records are read element by element, references from the identifiers of all elements. Whatever a
record is made of is among the identifiers of its element, and putting it into a package changes no
owner that an identifier names.
-/

namespace AddonAtlas

open AddonAtlas.Text

/-- What a record names: itself, what it extends and what it calls. -/
def Record.identifiers (r : Record) : List String :=
  r.name :: (r.inherit.toList ++ r.calls.toList)

namespace Markup

variable {package id owner : String} {n : Node} {c : Contents} {r : Record} {elements : List Node}

/-- An identifier begins with two words and a dot between them; the first word is its owner. -/
structure OwnedBy (id owner : String) : Prop where
  ne_empty : owner ≠ ""
  word : ∀ c ∈ owner.toList, isWord c = true
  dotted : ∃ c rest, isWord c = true ∧ id.toList = owner.toList ++ '.' :: c :: rest

/-! ## Owners -/

lemma takeWhile_isWord {a : List Char} (ha : ∀ c ∈ a, isWord c = true) (rest : List Char) :
    (a ++ '.' :: rest).takeWhile isWord = a := by
  have hdot : isWord '.' = false := by decide
  rw [List.takeWhile_append_of_pos ha, List.takeWhile_cons_of_neg (by simp [hdot]), List.append_nil]

lemma owner?_eq_some_iff : owner? id = some owner ↔ OwnedBy id owner := by
  have hsplit : id.toList.takeWhile isWord ++ id.toList.drop (id.toList.takeWhile isWord).length =
      id.toList := List.prefix_iff_eq_append.1 (List.takeWhile_prefix isWord)
  constructor
  · intro h
    unfold owner? at h
    dsimp only at h
    split at h
    · rename_i c rest hrest
      split_ifs at h with hwords
      obtain rfl := Option.some.inj h
      obtain ⟨hne, hc⟩ := Bool.and_eq_true_iff.1 hwords
      refine ⟨fun hempty => ?_, fun x hx => ?_, c, rest, hc, ?_⟩
      · simp [String.ofList_eq_empty_iff.1 hempty] at hne
      · rw [String.toList_ofList] at hx
        exact List.all_eq_true.1 List.all_takeWhile x hx
      · rw [String.toList_ofList, ← hrest, hsplit]
    · cases h
  · rintro ⟨hne, hword, c, rest, hc, hid⟩
    have htake : id.toList.takeWhile isWord = owner.toList := by rw [hid, takeWhile_isWord hword]
    have hdrop : id.toList.drop owner.toList.length = '.' :: c :: rest := by
      rw [hid, List.drop_left]
    have hfull : owner.toList.isEmpty = false := by
      rw [List.isEmpty_eq_false_iff]
      exact fun hnil => hne (String.toList_eq_nil_iff.1 hnil)
    simp [owner?, htake, hdrop, hfull, hc]

lemma OwnedBy.not_mem_dot (h : OwnedBy id owner) : '.' ∉ owner.toList := fun hdot =>
  absurd (h.word '.' hdot) (by decide)

/-! ## Names inside a package -/

lemma dot_mem_qualify (id package : String) : '.' ∈ (Record.qualify id package).toList := by
  unfold Record.qualify
  split
  · exact List.contains_iff_mem.1 ‹_›
  · simp

/-- An identifier with an owner keeps it inside a package; all others get the package for it. -/
lemma ownedBy_qualify (hpackage : '.' ∉ package.toList)
    (h : OwnedBy (Record.qualify id package) owner) : owner = package ∨ OwnedBy id owner := by
  unfold Record.qualify at h
  split at h
  · exact .inr h
  · obtain ⟨c, rest, -, hid⟩ := h.dotted
    left
    have hchars : package.toList ++ '.' :: id.toList = owner.toList ++ '.' :: c :: rest := by
      simpa using hid
    exact String.toList_inj.1 (eq_of_append_cons h.not_mem_dot hpackage hchars.symm).1

/-- A name that was made up belongs to the package. -/
lemma ownedBy_syntheticName (hpackage : '.' ∉ package.toList)
    (h : OwnedBy (Record.syntheticName id package) owner) : owner = package := by
  obtain ⟨c, rest, -, hid⟩ := h.dotted
  have hchars : package.toList ++ '.' :: (Record.localPart id).toList =
      owner.toList ++ '.' :: c :: rest := by simpa [Record.syntheticName] using hid
  exact String.toList_inj.1 (eq_of_append_cons h.not_mem_dot hpackage hchars.symm).1

/-! ## Identifiers of elements -/

lemma mem_references : owner ∈ (references elements package).toList ↔
    owner ≠ package ∧ ∃ n ∈ elements, ∃ id ∈ identifiers n, OwnedBy id owner := by
  simp only [references, OrdSet.mem_ofList, List.mem_filter, List.mem_filterMap, List.mem_flatMap,
    owner?_eq_some_iff, decide_eq_true_eq]
  constructor
  · rintro ⟨⟨id, ⟨n, hn, hid⟩, howner⟩, hne⟩
    exact ⟨hne, n, hn, id, hid, howner⟩
  · rintro ⟨hne, n, hn, id, hid, howner⟩
    exact ⟨⟨id, ⟨n, hn, hid⟩, howner⟩, hne⟩

/-- What a record is made of is among the identifiers of its element. -/
lemma mem_identifiers (h : contents? n = some c) :
    (∀ own ∈ n.attribute? "id", own ∈ identifiers n) ∧
    (∀ parent ∈ c.inherit, parent ∈ identifiers n) ∧ ∀ call ∈ c.calls, call ∈ identifiers n := by
  unfold contents? at h
  split_ifs at h with htemplate hrecord hview
  · obtain rfl := Option.some.inj h
    have hids : identifiers n =
        (n.attribute? "inherit_id").toList ++ callsBelow n ++ (n.attribute? "id").toList := by
      simp [identifiers, htemplate, dataTags]
    rw [hids]
    refine ⟨fun own hown => ?_, fun parent hparent => ?_, fun call hcall => ?_⟩
    · simp [Option.mem_def.1 hown]
    · exact List.mem_append_left _ (List.mem_append_left _ (Option.mem_toList.2 hparent))
    · exact List.mem_append_left _ (List.mem_append_right _ hcall)
  · obtain rfl := Option.some.inj h
    have hids :
        identifiers n = (fieldsNamed n "inherit_id").filterMap (fun f => f.attribute? "ref") ++
          (fieldsNamed n "arch").flatMap callsBelow ++ (n.attribute? "id").toList := by
      simp [identifiers, hrecord, hview, dataTags]
    rw [hids]
    refine ⟨fun own hown => ?_, fun parent hparent => ?_, fun call hcall => ?_⟩
    · simp [Option.mem_def.1 hown]
    · obtain ⟨f, hf, hparent⟩ := List.exists_of_findSome?_eq_some (Option.mem_def.1 hparent)
      exact List.mem_append_left _ (List.mem_append_left _ (List.mem_filterMap.2 ⟨f, hf, hparent⟩))
    · exact List.mem_append_left _ (List.mem_append_right _ hcall)
  · obtain rfl := Option.some.inj h
    refine ⟨fun own hown => ?_, by simp, by simp⟩
    simp [identifiers, hrecord, dataTags, Option.mem_def.1 hown]

/-! ## Records -/

/-- The name of a record, by its own identifier and what it extends. -/
inductive Named (package : String) : Option String → Option String → String → Prop
  | own (given : String) (parent : Option String) :
    Named package (some given) parent (Record.qualify given package)
  | synthetic (parent : String) :
    Named package none (some parent) (Record.syntheticName parent package)

lemma record?_eq_some (h : record? package n = some r) : ∃ c, contents? n = some c ∧
    Named package (n.attribute? "id") c.inherit r.name ∧
    r.inherit = c.inherit.map (Record.qualify · package) ∧
    r.calls = .ofList (c.calls.map (Record.qualify · package)) := by
  obtain ⟨c, hc, h⟩ := Option.bind_eq_some_iff.1 h
  refine ⟨c, hc, ?_⟩
  dsimp only at h
  split at h
  · rename_i given hgiven
    obtain rfl := Option.some.inj h
    exact ⟨by rw [hgiven]; exact .own given c.inherit, rfl, rfl⟩
  · rename_i parent hown hparent
    obtain rfl := Option.some.inj h
    exact ⟨by rw [hown, hparent]; exact .synthetic parent, rfl, rfl⟩
  · cases h

/-- Each name in a record has a dot, and an owner that it has besides the package is the owner of an
identifier of the element. -/
lemma identifiers_record (hpackage : '.' ∉ package.toList) (h : record? package n = some r) :
    ∀ id ∈ r.identifiers, '.' ∈ id.toList ∧ ∀ owner, OwnedBy id owner →
      owner = package ∨ ∃ written ∈ identifiers n, OwnedBy written owner := by
  have hqualify {written : String} (hwritten : written ∈ identifiers n) :
      '.' ∈ (Record.qualify written package).toList ∧
        ∀ owner, OwnedBy (Record.qualify written package) owner →
          owner = package ∨ ∃ written ∈ identifiers n, OwnedBy written owner :=
    ⟨dot_mem_qualify written package, fun owner howner =>
      (ownedBy_qualify hpackage howner).imp_right fun howner => ⟨written, hwritten, howner⟩⟩
  obtain ⟨c, hc, hname, hr, hrcalls⟩ := record?_eq_some h
  obtain ⟨hown, hinherit, hcalls⟩ := mem_identifiers hc
  intro id hid
  simp only [Record.identifiers, hr, hrcalls, List.mem_cons, List.mem_append, Option.mem_toList,
    OrdSet.mem_ofList, List.mem_map] at hid
  rcases hid with rfl | hid | ⟨call, hcall, rfl⟩
  · generalize r.name = name, hid : n.attribute? "id" = own?, c.inherit = parent? at hname
    cases hname with
    | own given => exact hqualify (hown given hid)
    | synthetic parent =>
      exact ⟨by simp [Record.syntheticName],
        fun owner howner => .inl (ownedBy_syntheticName hpackage howner)⟩
  · obtain ⟨parent, hparent, rfl⟩ := Option.map_eq_some_iff.1 hid
    exact hqualify (hinherit parent hparent)
  · exact hqualify (hcalls call hcall)

/-- **Records and references.** In whatever way the elements of a document are nested, each record
that it declares has dotted names only, for itself, for what it extends and for what it calls.
Where such a name begins with two words and a dot between them, the first word is the package or
one of the packages that the document refers to. The package itself is none of these. -/
theorem records_refer (package text : String) (hpackage : '.' ∉ package.toList) {u : Unit}
    (hu : Unit.ofText? package text = some u) :
    (∀ r ∈ u.records, ∀ id ∈ r.identifiers, '.' ∈ id.toList ∧
      ∀ owner, OwnedBy id owner → owner = package ∨ owner ∈ u.refers.toList) ∧
    package ∉ u.refers.toList := by
  obtain ⟨root, -, rfl⟩ := Option.map_eq_some_iff.1 hu
  refine ⟨fun r hr id hid => ?_, fun hself => (mem_references.1 hself).1 rfl⟩
  obtain ⟨n, hn, hr⟩ := List.mem_filterMap.1 hr
  obtain ⟨hdot, howners⟩ := identifiers_record hpackage hr id hid
  refine ⟨hdot, fun owner howner => ?_⟩
  by_cases hself : owner = package
  · exact .inl hself
  · obtain ⟨written, hwritten, hname⟩ := (howners owner howner).resolve_left hself
    exact .inr (mem_references.2 ⟨hself, n, hn, written, hwritten, hname⟩)

/-- A view that extends a form and calls a layout, with a template inside of it that has no
identifier. -/
def nestedMarkup : String :=
  "<odoo><record id='order' model='ir.ui.view'><field name='inherit_id' ref='base.form'/>" ++
  "<field name='arch'><t t-call='web.layout'><template inherit_id='mail.thread'/></t></field>" ++
  "</record></odoo>"

lemma identifiers_nestedMarkup :
    (Unit.ofText? "sale" nestedMarkup).map (fun u => u.records.map Record.identifiers) =
      some [["sale.order", "base.form", "web.layout"], ["sale.thread", "mail.thread"]] := by
  decide +kernel

theorem records_refer_nestedMarkup : '.' ∉ "sale".toList ∧
    ∃ u, Unit.ofText? "sale" nestedMarkup = some u ∧
      (∃ r ∈ u.records, "mail.thread" ∈ r.identifiers) ∧
      "mail" ∈ u.refers.toList ∧ "sale" ∉ u.refers.toList := by
  have hpackage : '.' ∉ "sale".toList := by decide
  obtain ⟨u, hu, hidentifiers⟩ := Option.map_eq_some_iff.1 identifiers_nestedMarkup
  obtain ⟨hrecords, hself⟩ := records_refer "sale" nestedMarkup hpackage hu
  obtain ⟨r, hr, hr'⟩ := List.mem_map.1
    (hidentifiers ▸ List.mem_cons_of_mem _ List.mem_cons_self :
      ["sale.thread", "mail.thread"] ∈ u.records.map Record.identifiers)
  have hthread : "mail.thread" ∈ r.identifiers := by simp [hr']
  have howned : OwnedBy "mail.thread" "mail" :=
    ⟨by decide, List.all_eq_true.1 (by decide : "mail".toList.all isWord = true), 't',
      "hread".toList, by decide, by decide⟩
  exact ⟨hpackage, u, hu, ⟨r, hr, hthread⟩,
    ((hrecords r hr _ hthread).2 "mail" howned).resolve_left (by decide), hself⟩

end Markup

end AddonAtlas
