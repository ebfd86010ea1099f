import MetricSql.Proofs.Plan.Built

/-!
# What a request is resolved to

The items of a request are sorted by the model they are read from.  The lemmas
below say exactly what comes out: which elements are read from the anchor, one
read for each link in the order of first use, and the measures of all metrics
from one model.  Nothing is assumed of the manifest unless it is said.
-/

namespace MetricSql

/-! ## Lists without repetitions -/

section EraseDups

variable {α : Type} [BEq α] [LawfulBEq α]

theorem eraseDups_concat_of_mem {xs : List α} {x : α} (h : x ∈ xs) :
    (xs ++ [x]).eraseDups = xs.eraseDups := by
  simp [List.eraseDups_append, List.removeAll, h]

theorem eraseDups_concat_of_not_mem {xs : List α} {x : α} (h : x ∉ xs) :
    (xs ++ [x]).eraseDups = xs.eraseDups ++ [x] := by
  simp [List.eraseDups_append, List.removeAll, h, List.eraseDups_cons]

theorem nodup_eraseDups (xs : List α) : xs.eraseDups.Nodup := by
  induction xs using List.reverseRecOn with
  | nil => simp
  | append_singleton xs x ih =>
      by_cases hx : x ∈ xs
      · rw [eraseDups_concat_of_mem hx]
        exact ih
      · rw [eraseDups_concat_of_not_mem hx]
        have hnew : x ∉ xs.eraseDups := by
          rw [List.mem_eraseDups]
          exact hx
        exact List.concat_eq_append ▸ ih.concat hnew

end EraseDups

/-- Sorting by a key loses and repeats nothing, if every key is listed once. -/
theorem flatMap_filter_perm {α β : Type} [DecidableEq β] {key : α → β} {keys : List β}
    (hkeys : keys.Nodup) {xs : List α} (hcover : ∀ x ∈ xs, key x ∈ keys) :
    (keys.flatMap fun k => xs.filter fun x => key x = k).Perm xs := by
  induction keys generalizing xs with
  | nil =>
      have hempty : xs = [] := by
        rw [List.eq_nil_iff_forall_not_mem]
        intro x hx
        exact absurd (hcover x hx) List.not_mem_nil
      simp [hempty]
  | cons k keys ih =>
      obtain ⟨hk, hkeys⟩ := List.nodup_cons.mp hkeys
      have hrest : (keys.flatMap fun k' =>
          (xs.filter fun x => !decide (key x = k)).filter fun x => key x = k').Perm
          (xs.filter fun x => !decide (key x = k)) := by
        apply ih hkeys
        intro x hx
        obtain ⟨hmem, hne⟩ := List.mem_filter.mp hx
        have hne : key x ≠ k := by simpa using hne
        exact (List.mem_cons.mp (hcover x hmem)).resolve_left hne
      -- What has another key than the first is found under that key as before.
      have hsame : (keys.flatMap fun k' =>
          (xs.filter fun x => !decide (key x = k)).filter fun x => key x = k') =
          keys.flatMap fun k' => xs.filter fun x => key x = k' := by
        refine List.flatMap_congr fun k' hk' => ?_
        have hne : k' ≠ k := fun heq => hk (heq ▸ hk')
        rw [List.filter_filter]
        refine List.filter_congr fun x _ => ?_
        by_cases hx : key x = k'
        · simp [hx, hne]
        · simp [hx]
      rw [hsame] at hrest
      exact (hrest.append_left _).trans (List.filter_append_perm _ xs)

/-! ## The elements of a model -/

namespace Element

/-- The role of a column that holds the element. -/
def role : Element → ColumnRole
  | .entity _ => .entity
  | .dimension d => if d.isTime then .timeDimension else .dimension
  | .measure _ => .measure

def dataType? : Element → Option DataType
  | .entity e => some e.dataType
  | .dimension d => some d.dataType
  | .measure m => m.rowType

end Element

namespace Model

theorem element?_of_entity? {model : Model} {name : String} {entity : Entity}
    (h : model.entity? name = some entity) :
    model.element? name = some (.entity entity) := by
  rw [element?, h]

/-- A name of a dimension is the name of an entity or a dimension. -/
theorem element?_of_dimension? {model : Model} {name : String} {dimension : Dimension}
    (h : model.dimension? name = some dimension) :
    ∃ element, model.element? name = some element ∧ element.role.isGroupable := by
  cases hentity : model.entity? name with
  | some entity => exact ⟨.entity entity, element?_of_entity? hentity, rfl⟩
  | none =>
      refine ⟨.dimension dimension, ?_, ?_⟩
      · rw [element?, hentity]
        simp only [h]
      · rw [Element.role]
        split <;> rfl

/-- A measure is found under its name unless an entity or a dimension hides it. -/
theorem element?_of_measure? {model : Model} {name : String} {measure : Measure}
    (h : model.measure? name = some measure) :
    ∃ element, model.element? name = some element ∧
      (element.role = .measure → element = .measure measure) := by
  cases hentity : model.entity? name with
  | some entity =>
      exact ⟨.entity entity, element?_of_entity? hentity, by simp [Element.role]⟩
  | none =>
      cases hdimension : model.dimension? name with
      | some dimension =>
          refine ⟨.dimension dimension, ?_, ?_⟩
          · rw [element?, hentity]
            simp only [hdimension]
          · rw [Element.role]
            split <;> simp
      | none =>
          refine ⟨.measure measure, ?_, fun _ => rfl⟩
          rw [element?, hentity]
          simp only [hdimension, h, Option.map_some]

theorem dimension?_of_timeDimension? {model : Model} {dimension : Dimension}
    (h : model.timeDimension? = some dimension) :
    ∃ found, model.dimension? dimension.name = some found := by
  rw [← Option.isSome_iff_exists, dimension?, List.find?_isSome]
  exact ⟨dimension, List.mem_of_find?_eq_some h, by simp⟩

/-- A column has the role and the type of the element that it holds, truncated
or not. -/
theorem elementColumn_role (tableAlias : String) {ref : ElementRef} {element : Element}
    (hcheck : checkGrain? element ref = .ok ()) :
    (elementColumn tableAlias ref element).role = element.role ∧
      (elementColumn tableAlias ref element).dataType = element.dataType? := by
  cases element with
  | entity entity => exact ⟨rfl, rfl⟩
  | measure measure => exact ⟨rfl, rfl⟩
  | dimension dimension =>
      cases hgrain : ref.grain with
      | none => simp [elementColumn, hgrain, Element.role, Element.dataType?]
      | some grain =>
          have htime : dimension.isTime = true := by
            by_contra hnot
            simp [checkGrain?, hgrain, checkGrain, Dimension.finestGrain?, hnot] at hcheck
          simp [elementColumn, hgrain, Element.role, Element.dataType?, htime]

end Model

/-! ## Links -/

namespace Manifest

/-- The entity through which an item is reached, and the name of the model in
which it is found. -/
def linkName? (manifest : Manifest) (anchor : Model) (item : GroupItem) :
    Option (String × String) :=
  item.via.bind fun entity =>
    (manifest.linkedModel? entity item.name anchor.name).map fun model =>
      (entity, model.name)

/-- The links of the items, each once, in the order of first use. -/
def links (manifest : Manifest) (anchor : Model) (items : List GroupItem) :
    List (String × String) :=
  (items.filterMap (manifest.linkName? anchor)).eraseDups

/-- The element that an item names: one of the anchor, or one of the model that
the item is linked to. -/
def itemElement? (manifest : Manifest) (anchor : Model) (item : GroupItem) :
    Option Element :=
  match item.via with
  | none => anchor.element? item.name
  | some entity =>
    (manifest.linkedModel? entity item.name anchor.name).bind (·.element? item.name)

/-- The item can be grouped by: it is an entity or a dimension of the anchor, or a
dimension of a model that an entity of the anchor leads to. -/
def Resolves (manifest : Manifest) (anchor : Model) (item : GroupItem) : Prop :=
  match item.via with
  | none => ∃ element, anchor.element? item.name = some element ∧ element.role.isGroupable
  | some entity =>
    (∃ found, anchor.entity? entity = some found) ∧
      ∃ model, manifest.linkedModel? entity item.name anchor.name = some model

variable {manifest : Manifest} {anchor : Model} {item : GroupItem}

theorem linkName?_of_local (h : item.via = none) : manifest.linkName? anchor item = none := by
  simp [linkName?, h]

theorem linkName?_of_linked {entity : String} {model : Model} (hvia : item.via = some entity)
    (hmodel : manifest.linkedModel? entity item.name anchor.name = some model) :
    manifest.linkName? anchor item = some (entity, model.name) := by
  simp [linkName?, hvia, hmodel]

theorem linkName?_eq_some {entity name : String}
    (h : manifest.linkName? anchor item = some (entity, name)) :
    item.via = some entity ∧ ∃ model,
      manifest.linkedModel? entity item.name anchor.name = some model ∧ model.name = name := by
  obtain ⟨found, hvia, hmap⟩ := Option.bind_eq_some_iff.mp h
  obtain ⟨model, hmodel, heq⟩ := Option.map_eq_some_iff.mp hmap
  cases heq
  exact ⟨hvia, model, hmodel, rfl⟩

theorem resolves_iff_of_local (h : item.via = none) :
    manifest.Resolves anchor item ↔
      ∃ element, anchor.element? item.name = some element ∧ element.role.isGroupable := by
  simp [Resolves, h]

theorem resolves_iff_of_linked {entity : String} (h : item.via = some entity) :
    manifest.Resolves anchor item ↔
      (∃ found, anchor.entity? entity = some found) ∧
        ∃ model, manifest.linkedModel? entity item.name anchor.name = some model := by
  simp [Resolves, h]

/-- What is found through an entity: a model of another name, which the entity
identifies and which has the dimension. -/
theorem linkedModel?_eq_some {entity dimension exclude : String} {model : Model}
    (h : manifest.linkedModel? entity dimension exclude = some model) :
    (∃ found, model.entity? entity = some found) ∧
      ∃ found, model.dimension? dimension = some found := by
  have hfound := List.find?_some h
  simp only [Bool.and_eq_true, Model.isIdentifiedBy, Option.any_eq_true,
    Option.isSome_iff_exists] at hfound
  obtain ⟨⟨-, entity, hentity, -⟩, hdimension⟩ := hfound
  exact ⟨⟨entity, hentity⟩, hdimension⟩

theorem Resolves.itemElement? (h : manifest.Resolves anchor item) :
    ∃ element, manifest.itemElement? anchor item = some element ∧
      element.role.isGroupable := by
  unfold Manifest.itemElement?
  cases hvia : item.via with
  | none => exact (resolves_iff_of_local hvia).mp h
  | some entity =>
      obtain ⟨-, model, hmodel⟩ := (resolves_iff_of_linked hvia).mp h
      obtain ⟨-, dimension, hdimension⟩ := linkedModel?_eq_some hmodel
      simpa [hmodel] using Model.element?_of_dimension? hdimension

theorem resolveLocal_eq_ok :
    manifest.resolveLocal anchor item = .ok () ↔
      ∃ element, anchor.element? item.name = some element ∧
        element.role.isGroupable := by
  unfold resolveLocal
  cases anchor.element? item.name with
  | none => simp
  | some element =>
      cases element with
      | entity entity => simp [Element.role, ColumnRole.isGroupable]
      | dimension dimension =>
          simp only [Option.some.injEq, exists_eq_left', Element.role, true_iff]
          split <;> rfl
      | measure measure => simp [Element.role, ColumnRole.isGroupable]

end Manifest

/-! ## Reads of linked models -/

namespace LinkedRead

/-- The entity and the name of the model. -/
def link (read : LinkedRead) : String × String := (read.entity, read.model.name)

theorem isThrough_eq_true {read : LinkedRead} {entity model : String} :
    read.isThrough entity model = true ↔ read.link = (entity, model) := by
  simp [isThrough, link]

/-- An element goes to the end of the first read with the same link, or starts a
new read behind all others. -/
theorem add_cases (entity : String) (model : Model) (element : ElementRef)
    (reads : List LinkedRead) :
    (∃ before read after, reads = before ++ read :: after ∧
        read.link = (entity, model.name) ∧
        add entity model element reads =
          before ++ { read with elements := read.elements ++ [element] } :: after) ∨
      (entity, model.name) ∉ reads.map link ∧
        add entity model element reads =
          reads ++ [⟨entity, model, [⟨entity, none⟩, element]⟩] := by
  induction reads with
  | nil => exact .inr ⟨by simp, rfl⟩
  | cons first rest ih =>
      rw [add]
      split
      next hthrough =>
        exact .inl ⟨[], first, rest, rfl, isThrough_eq_true.mp hthrough, rfl⟩
      next hthrough =>
        have hne : first.link ≠ (entity, model.name) :=
          fun heq => hthrough (isThrough_eq_true.mpr heq)
        rcases ih with ⟨before, read, after, rfl, hlink, heq⟩ | ⟨hnew, heq⟩
        · exact .inl ⟨first :: before, read, after, rfl, hlink, by rw [heq]; rfl⟩
        · refine .inr ⟨?_, by rw [heq]; rfl⟩
          rw [List.map_cons, List.mem_cons, not_or]
          exact ⟨hne.symm, hnew⟩

/-- A read holds its entity and then the elements of exactly the items with its
link, and it reads the model of one of them. -/
structure Collects (manifest : Manifest) (anchor : Model) (items : List GroupItem)
    (read : LinkedRead) : Prop where
  elements_eq : read.elements = ⟨read.entity, none⟩ ::
    (items.filter fun item => manifest.linkName? anchor item = some read.link).map
      GroupItem.element
  found : ∃ item ∈ items, item.via = some read.entity ∧
    manifest.linkedModel? read.entity item.name anchor.name = some read.model

section Collects

variable {manifest : Manifest} {anchor : Model} {items : List GroupItem}
  {item : GroupItem} {read : LinkedRead}

theorem Collects.link_mem (h : read.Collects manifest anchor items) :
    read.link ∈ items.filterMap (manifest.linkName? anchor) := by
  obtain ⟨item, hitem, hvia, hmodel⟩ := h.found
  exact List.mem_filterMap.mpr ⟨item, hitem, Manifest.linkName?_of_linked hvia hmodel⟩

theorem Collects.concat_other (h : read.Collects manifest anchor items)
    (hother : manifest.linkName? anchor item ≠ some read.link) :
    read.Collects manifest anchor (items ++ [item]) := by
  refine ⟨?_, ?_⟩
  · simpa [hother] using h.elements_eq
  · obtain ⟨found, hfound, hrest⟩ := h.found
    exact ⟨found, List.mem_append_left _ hfound, hrest⟩

theorem Collects.concat_same (h : read.Collects manifest anchor items)
    (hsame : manifest.linkName? anchor item = some read.link) :
    Collects manifest anchor (items ++ [item])
      { read with elements := read.elements ++ [item.element] } := by
  refine ⟨?_, ?_⟩
  · have hfilter : (items ++ [item]).filter (fun other =>
        manifest.linkName? anchor other = some read.link) =
        (items.filter fun other => manifest.linkName? anchor other = some read.link) ++
          [item] := by
      simp [hsame]
    refine Eq.trans ?_ (congrArg (fun found => _ :: found.map GroupItem.element) hfilter.symm)
    simp [h.elements_eq]
  · obtain ⟨found, hfound, hrest⟩ := h.found
    exact ⟨found, List.mem_append_left _ hfound, hrest⟩

theorem collects_new (hvia : item.via = some read.entity)
    (hmodel : manifest.linkedModel? read.entity item.name anchor.name = some read.model)
    (helements : read.elements = [⟨read.entity, none⟩, item.element])
    (hnew : read.link ∉ items.filterMap (manifest.linkName? anchor)) :
    read.Collects manifest anchor (items ++ [item]) := by
  have hlink : manifest.linkName? anchor item = some read.link :=
    Manifest.linkName?_of_linked hvia hmodel
  have hnone : ∀ other ∈ items, manifest.linkName? anchor other ≠ some read.link :=
    fun other hother heq => hnew (List.mem_filterMap.mpr ⟨other, hother, heq⟩)
  refine ⟨?_, item, by simp, hvia, hmodel⟩
  simpa [hlink, helements] using hnone

end Collects

end LinkedRead

/-! ## Sorting the items -/

/-- What has been read for the items so far. -/
structure Grouping.Sorts (manifest : Manifest) (anchor : Model) (items : List GroupItem)
    (grouping : Grouping) : Prop where
  resolves : ∀ item ∈ items, manifest.Resolves anchor item
  elements_eq : grouping.elements =
    (items.filter fun item => item.via.isNone).map GroupItem.element
  links_eq : grouping.links = (items.filterMap (·.via)).eraseDups
  linked_eq : grouping.linked.map LinkedRead.link = manifest.links anchor items
  collects : ∀ read ∈ grouping.linked, read.Collects manifest anchor items

namespace Grouping

variable {manifest : Manifest} {anchor : Model} {items : List GroupItem}
  {grouping grouping' : Grouping} {item : GroupItem}

theorem Sorts.addLocal (h : grouping.Sorts manifest anchor items) (hvia : item.via = none)
    (hresolves : manifest.Resolves anchor item) :
    Sorts manifest anchor (items ++ [item])
      { grouping with elements := grouping.elements ++ [item.element] } := by
  have hlink : manifest.linkName? anchor item = none := Manifest.linkName?_of_local hvia
  refine ⟨?_, ?_, ?_, ?_, ?_⟩
  · exact List.forall_mem_append.mpr ⟨h.resolves, by simpa using hresolves⟩
  · simp [h.elements_eq, hvia]
  · simp [h.links_eq, hvia]
  · simp [h.linked_eq, Manifest.links, hlink]
  · intro read hread
    exact (h.collects read hread).concat_other (by simp [hlink])

theorem Sorts.link_entity? (h : grouping.Sorts manifest anchor items) {name : String}
    (hname : name ∈ grouping.links) : ∃ entity, anchor.entity? name = some entity := by
  rw [h.links_eq, List.mem_eraseDups, List.mem_filterMap] at hname
  obtain ⟨item, hitem, hvia⟩ := hname
  exact ((Manifest.resolves_iff_of_linked hvia).mp (h.resolves item hitem)).1

/-- A linked item opens a read only if its link is new. -/
theorem Sorts.add_links (h : grouping.Sorts manifest anchor items) {entity : String}
    {model : Model} (hlink : manifest.linkName? anchor item = some (entity, model.name)) :
    (LinkedRead.add entity model item.element grouping.linked).map LinkedRead.link =
      manifest.links anchor (items ++ [item]) := by
  have hlinks : manifest.links anchor (items ++ [item]) =
      (items.filterMap (manifest.linkName? anchor) ++ [(entity, model.name)]).eraseDups := by
    simp [Manifest.links, hlink]
  rcases LinkedRead.add_cases entity model item.element grouping.linked with
    ⟨before, read, after, hreads, hread, heq⟩ | ⟨hnew, heq⟩
  · have hmem : (entity, model.name) ∈ items.filterMap (manifest.linkName? anchor) := by
      rw [← hread]
      exact (h.collects read (by simp [hreads])).link_mem
    have hsame : (LinkedRead.add entity model item.element grouping.linked).map
        LinkedRead.link = grouping.linked.map LinkedRead.link := by
      rw [heq, hreads]
      simp [LinkedRead.link]
    rw [hsame, hlinks, eraseDups_concat_of_mem hmem]
    exact h.linked_eq
  · rw [h.linked_eq, Manifest.links, List.mem_eraseDups] at hnew
    rw [heq, hlinks, eraseDups_concat_of_not_mem hnew, List.map_append, h.linked_eq]
    rfl

/-- A linked item goes into the read of its link and into no other. -/
theorem Sorts.add_collects (h : grouping.Sorts manifest anchor items) {entity : String}
    {model : Model} (hvia : item.via = some entity)
    (hmodel : manifest.linkedModel? entity item.name anchor.name = some model) :
    ∀ read ∈ LinkedRead.add entity model item.element grouping.linked,
      read.Collects manifest anchor (items ++ [item]) := by
  have hlink := Manifest.linkName?_of_linked hvia hmodel
  have hnodup : (grouping.linked.map LinkedRead.link).Nodup :=
    h.linked_eq ▸ nodup_eraseDups _
  rcases LinkedRead.add_cases entity model item.element grouping.linked with
    ⟨before, read, after, hreads, hread, heq⟩ | ⟨hnew, heq⟩
  · have hother : ∀ other ∈ before ++ after,
        manifest.linkName? anchor item ≠ some other.link := by
      intro other hother hsame
      rw [hlink, ← hread] at hsame
      rw [hreads, List.map_append, List.map_cons, List.nodup_middle,
        List.nodup_cons, ← List.map_append] at hnodup
      apply hnodup.1
      rw [Option.some.inj hsame]
      exact List.mem_map_of_mem hother
    intro found hfound
    rw [heq, List.mem_append, List.mem_cons, or_left_comm, ← List.mem_append] at hfound
    rcases hfound with rfl | hfound
    · have hold := h.collects read (by simp [hreads])
      exact hold.concat_same (hlink.trans (congrArg some hread.symm))
    · have hmem : found ∈ grouping.linked := by
        rw [hreads]
        simp only [List.mem_append, List.mem_cons] at hfound ⊢
        tauto
      exact (h.collects found hmem).concat_other (hother found hfound)
  · have hfresh := hnew
    rw [h.linked_eq, Manifest.links, List.mem_eraseDups] at hfresh
    intro found hfound
    rw [heq, List.mem_append, List.mem_singleton] at hfound
    rcases hfound with hfound | rfl
    · refine (h.collects found hfound).concat_other fun hsame => hnew ?_
      rw [Option.some.inj (hlink.symm.trans hsame)]
      exact List.mem_map_of_mem hfound
    · exact LinkedRead.collects_new hvia hmodel rfl hfresh

theorem Sorts.addLinked (h : grouping.Sorts manifest anchor items) {entity : String}
    {model : Model} (hvia : item.via = some entity)
    (hresolves : manifest.Resolves anchor item)
    (hmodel : manifest.linkedModel? entity item.name anchor.name = some model) :
    Sorts manifest anchor (items ++ [item])
      { grouping with
        links :=
          if grouping.links.contains entity then grouping.links
          else grouping.links ++ [entity]
        linked := LinkedRead.add entity model item.element grouping.linked } := by
  refine ⟨?_, ?_, ?_, ?_, ?_⟩
  · exact List.forall_mem_append.mpr ⟨h.resolves, by simpa using hresolves⟩
  · simp [h.elements_eq, hvia]
  · simp only [h.links_eq, List.filterMap_append, List.filterMap_cons, hvia,
      List.filterMap_nil, List.contains_iff_mem, List.mem_eraseDups]
    split
    next hmem => rw [eraseDups_concat_of_mem hmem]
    next hnot => rw [eraseDups_concat_of_not_mem hnot]
  · exact h.add_links (Manifest.linkName?_of_linked hvia hmodel)
  · exact h.add_collects hvia hmodel

theorem addItem_sorts (hsorts : grouping.Sorts manifest anchor items)
    (h : grouping.addItem manifest anchor item = .ok grouping') :
    grouping'.Sorts manifest anchor (items ++ [item]) := by
  unfold addItem at h
  split at h
  next hvia =>
    simp only [bind_eq_ok] at h
    obtain ⟨⟨⟩, hlocal, ⟨⟩⟩ := h
    exact hsorts.addLocal hvia
      ((Manifest.resolves_iff_of_local hvia).mpr (Manifest.resolveLocal_eq_ok.mp hlocal))
  next entity hvia =>
    simp only [bind_eq_ok] at h
    obtain ⟨model, hresolve, ⟨⟩⟩ := h
    obtain ⟨hentity, hmodel⟩ := Manifest.resolveLinked_eq_ok hresolve
    exact hsorts.addLinked hvia
      ((Manifest.resolves_iff_of_linked hvia).mpr ⟨hentity, model, hmodel⟩) hmodel

end Grouping

theorem Manifest.resolveGroups_sorts {manifest : Manifest} {anchor : Model}
    {items : List GroupItem} {grouping : Grouping}
    (h : manifest.resolveGroups anchor items = .ok grouping) :
    grouping.Sorts manifest anchor items := by
  have hempty : Grouping.Sorts manifest anchor [] {} :=
    ⟨by simp, by simp, by simp, by simp [Manifest.links], by simp⟩
  exact foldlM_induction (P := Grouping.Sorts manifest anchor)
    Grouping.addItem_sorts hempty h

end MetricSql
