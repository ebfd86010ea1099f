import MetricSql.Proofs.Plan.Obstacle

/-!
# Which requests can be built

More is read than is asked for: the entities that link models, the bounds of
validity windows, and a time to lie in them.  The bounds are joined under the
entity like all columns of a linked model, and there they may meet a column of
another model that is linked through the same entity.  Nothing else that is added
can stand in the way of a request.
-/

namespace MetricSql

/-! ## Assumptions -/

/-- Names tell models apart, and the elements of each model, and none contains two
underscores in a row; windows are bounded by time dimensions of their model. -/
structure Manifest.Orderly (manifest : Manifest) : Prop where
  models : (manifest.models.map (·.name)).Nodup
  elements : ∀ model ∈ manifest.models, model.elementNames.Nodup
  unqualified : ∀ model ∈ manifest.models, ∀ name ∈ model.elementNames, Unqualified name
  windows : ∀ model ∈ manifest.models, ∀ window, model.window = some window →
    (∃ dimension ∈ model.dimensions, dimension.name = window.start ∧ dimension.isTime) ∧
      ∃ dimension ∈ model.dimensions, dimension.name = window.stop ∧ dimension.isTime

/-- All that is asked for exists and fits together. -/
structure Manifest.Resolvable (manifest : Manifest) (request : Request) (anchor : Model) :
    Prop where
  anchors : manifest.Anchors request anchor
  items : ∀ item ∈ request.groupBy, manifest.Resolves anchor item
  grains : ∀ item ∈ request.groupBy, ∀ element,
    manifest.itemElement? anchor item = some element →
      Model.checkGrain? element item.element = .ok ()
  keyTypes : ∀ item ∈ request.groupBy, ∀ entity model left right,
    item.via = some entity →
      manifest.linkedModel? entity item.name anchor.name = some model →
      anchor.entity? entity = some left → model.entity? entity = some right →
      left.dataType = right.dataType
  time : ∀ item ∈ request.groupBy, ∀ entity model, item.via = some entity →
    manifest.linkedModel? entity item.name anchor.name = some model →
      model.window ≠ none → anchor.timeDimension? ≠ none
  percentiles : ∀ input measure, manifest.Uses request input →
    anchor.measure? input = some measure → ∀ fraction discrete approximate,
      measure.aggregation = .percentile fraction discrete approximate →
        0.0 ≤ fraction ∧ fraction ≤ 1.0
  literals : ∀ name ∈ request.metrics, ∀ metric, manifest.metric? name = some metric →
    ∀ value ∈ metric.formula.literals, Decimal.isFinite value = true
  names : (request.groupBy.map (·.columnName) ++ request.metrics).Nodup

namespace Model

theorem ne_entity {model : Model} {dimension : Dimension} {entity : Entity} {name : String}
    (hnodup : model.elementNames.Nodup) (hdimension : dimension ∈ model.dimensions)
    (hentity : model.entity? name = some entity) : dimension.name ≠ name := by
  obtain ⟨hmem, rfl⟩ := entity?_mem hentity
  rw [elementNames, List.append_assoc, List.nodup_append] at hnodup
  intro heq
  refine hnodup.2.2 _ (List.mem_map_of_mem hmem) _ (List.mem_append_left _ ?_) heq.symm
  exact List.mem_map_of_mem hdimension

end Model

theorem Manifest.Orderly.consistent {manifest : Manifest} (h : manifest.Orderly) :
    manifest.Consistent := by
  refine ⟨h.models, ?_, ?_⟩
  · intro model hmodel measure hmeasure
    have hnodup := h.elements model hmodel
    rw [Model.elementNames, List.nodup_append] at hnodup
    have hnot : measure.name ∉
        model.entities.map (·.name) ++ model.dimensions.map (·.name) := by
      intro hmem
      exact hnodup.2.2 _ hmem _ (List.mem_map_of_mem hmeasure) rfl
    rwa [List.mem_append, not_or] at hnot
  · intro model hmodel window hwindow
    obtain ⟨⟨start, hstart, hstartName, -⟩, stop, hstop, hstopName, -⟩ :=
      h.windows model hmodel window hwindow
    have hmem : ∀ dimension ∈ model.dimensions, dimension.name ∈ model.elementNames := by
      intro dimension hdimension
      exact List.mem_append_left _ (List.mem_append_right _ (List.mem_map_of_mem hdimension))
    exact ⟨hstartName ▸ hmem start hstart, hstopName ▸ hmem stop hstop⟩

/-! ## What is read from the anchor -/

theorem addElement_eq (elements : List ElementRef) (name : String) :
    addElement elements name =
      if name ∈ elements.map ElementRef.columnName then elements
      else elements ++ [⟨name, none⟩] := by
  have hany : elements.any (·.columnName == name) = true ↔
      name ∈ elements.map ElementRef.columnName := by
    simp
  simp only [addElement, hany]

theorem foldl_addElement_eq (names : List String) (elements : List ElementRef) :
    ∃ added : List String,
      names.foldl addElement elements = elements ++ added.map (fun name => ⟨name, none⟩) ∧
        added.Nodup ∧
        ∀ name ∈ added, name ∈ names ∧ name ∉ elements.map ElementRef.columnName := by
  induction names generalizing elements with
  | nil => exact ⟨[], by simp⟩
  | cons first rest ih =>
      rw [List.foldl_cons, addElement_eq]
      by_cases hfirst : first ∈ elements.map ElementRef.columnName
      · rw [if_pos hfirst]
        obtain ⟨added, heq, hnodup, hadded⟩ := ih elements
        refine ⟨added, heq, hnodup, fun name hname => ?_⟩
        exact ⟨List.mem_cons_of_mem _ (hadded name hname).1, (hadded name hname).2⟩
      · rw [if_neg hfirst]
        obtain ⟨added, heq, hnodup, hadded⟩ := ih (elements ++ [⟨first, none⟩])
        simp only [List.map_append, List.mem_append, not_or] at hadded
        have hfresh : first ∉ added := by
          intro hmem
          exact (hadded first hmem).2.2 (by simp [ElementRef.columnName])
        refine ⟨first :: added, by simp [heq], List.nodup_cons.mpr ⟨hfresh, hnodup⟩, ?_⟩
        intro name hname
        rcases List.mem_cons.mp hname with rfl | hname
        · exact ⟨List.mem_cons_self, hfirst⟩
        · obtain ⟨hmem, hnew, -⟩ := hadded name hname
          exact ⟨List.mem_cons_of_mem _ hmem, hnew⟩

/-- Behind the items of the anchor stand elements of it that are not read twice. -/
structure Resolved.Extends (resolved : Resolved) (request : Request) (plain : List String) :
    Prop where
  elements_eq : resolved.elements =
    (request.groupBy.filter fun item => item.via.isNone).map GroupItem.element ++
      plain.map fun name => ⟨name, none⟩
  nodup : plain.Nodup
  name_mem : ∀ name ∈ plain, name ∈ resolved.anchor.elementNames
  name_new : ∀ name ∈ plain, ∀ item ∈ request.groupBy, item.via = none →
    item.element.columnName ≠ name

section Anchor

variable {manifest : Manifest} {request : Request} {resolved : Resolved}

theorem Manifest.resolve_extends (hmanifest : manifest.Orderly)
    (h : manifest.resolve request = .ok resolved) :
    ∃ plain, resolved.Extends request plain := by
  obtain ⟨-, -, hmeasures, -, grouping, hgrouping, hwindows, helements⟩ :=
    Manifest.resolve_eq_ok h
  have hmeasured := Manifest.resolveMeasures_measured hmanifest.models hmeasures
  have hsorts := Manifest.resolveGroups_sorts hgrouping
  rw [← List.foldl_append, hsorts.elements_eq] at helements
  obtain ⟨added, heq, hnodup, hadded⟩ := foldl_addElement_eq
    (grouping.links ++ resolved.time.toList)
    ((request.groupBy.filter fun item => item.via.isNone).map GroupItem.element)
  -- What is added for links and windows is no measure.
  have hgroupable : ∀ name ∈ added, ∃ element,
      resolved.anchor.element? name = some element ∧ element.role.isGroupable := by
    intro name hname
    rcases List.mem_append.mp (hadded name hname).1 with hlink | hmem
    · obtain ⟨entity, hentity⟩ := hsorts.link_entity? hlink
      exact ⟨_, Model.element?_of_entity? hentity, rfl⟩
    · have hsome : resolved.time = some name := by simpa using hmem
      rw [hsome] at hwindows
      obtain ⟨dimension, hdimension, rfl⟩ := LinkedRead.addWindows_time hwindows
      obtain ⟨found, hfound⟩ := Model.dimension?_of_timeDimension? hdimension
      exact Model.element?_of_dimension? hfound
  have hmeasure : ∀ term ∈ resolved.measures, ∀ element,
      resolved.anchor.element? term.name = some element → ¬ element.role.isGroupable := by
    intro term hterm element helement
    obtain ⟨-, measure, hfound, -⟩ := hmeasured.found term hterm
    rw [hmanifest.consistent.measure_role hmeasured.anchor_mem hfound helement]
    decide
  refine ⟨added ++ resolved.measures.map (·.name), ⟨?_, ?_, ?_, ?_⟩⟩
  · rw [helements, heq, List.append_assoc, List.map_append, List.map_map]
    rfl
  · rw [List.nodup_append, hmeasured.names_eq]
    refine ⟨hnodup, nodup_eraseDups _, ?_⟩
    rintro name hname other hother rfl
    rw [← hmeasured.names_eq] at hother
    obtain ⟨term, hterm, rfl⟩ := List.mem_map.mp hother
    obtain ⟨element, helement, hrole⟩ := hgroupable _ hname
    exact hmeasure term hterm element helement hrole
  · intro name hname
    rcases List.mem_append.mp hname with hname | hname
    · obtain ⟨element, helement, -⟩ := hgroupable name hname
      exact Model.name_mem_of_element? helement
    · obtain ⟨term, hterm, rfl⟩ := List.mem_map.mp hname
      obtain ⟨-, measure, hfound, -⟩ := hmeasured.found term hterm
      obtain ⟨element, helement, -⟩ := Model.element?_of_measure? hfound
      exact Model.name_mem_of_element? helement
  · intro name hname item hitem hvia hcolumn
    have hlocal : item ∈ request.groupBy.filter fun item => item.via.isNone :=
      List.mem_filter.mpr ⟨hitem, by simp [hvia]⟩
    rcases List.mem_append.mp hname with hname | hname
    · apply (hadded name hname).2
      rw [List.map_map, ← hcolumn]
      exact List.mem_map.mpr ⟨item, hlocal, rfl⟩
    · obtain ⟨term, hterm, rfl⟩ := List.mem_map.mp hname
      obtain ⟨-, measure, hfound, -⟩ := hmeasured.found term hterm
      obtain ⟨found, helement, -⟩ := Model.element?_of_measure? hfound
      have hplain := hmanifest.unqualified _ hmeasured.anchor_mem _
        (Model.name_mem_of_element? helement)
      have hsame : item.name = term.name :=
        congrArg ElementRef.name (ElementRef.eq_of_columnName hplain hcolumn)
      obtain ⟨element, hitemElement, hrole⟩ :=
        (Manifest.resolves_iff_of_local hvia).mp (hsorts.resolves item hitem)
      exact hmeasure term hterm element (hsame ▸ hitemElement) hrole

end Anchor

/-! ## What is read from linked models -/

namespace Manifest

/-- The items that are reached through a link. -/
def itemsOf (manifest : Manifest) (anchor : Model) (items : List GroupItem)
    (link : String × String) : List GroupItem :=
  items.filter fun item => manifest.linkName? anchor item = some link

/-- The bounds of the window of a linked model that are not asked for. -/
def boundsAdded (manifest : Manifest) (anchor : Model) (items : List GroupItem)
    (link : String × String) : List String :=
  (((manifest.model? link.2).bind (·.window)).toList.flatMap fun window =>
    [window.start, window.stop].eraseDups).filter fun bound =>
      ⟨bound, none⟩ ∉ (manifest.itemsOf anchor items link).map GroupItem.element

/-- The names under which bounds that are not asked for are joined. -/
def addedBounds (manifest : Manifest) (anchor : Model) (items : List GroupItem) :
    List String :=
  (manifest.links anchor items).flatMap fun link =>
    (manifest.boundsAdded anchor items link).map (qualified link.1)

end Manifest

namespace LinkedRead

variable {manifest : Manifest} {anchor : Model} {items : List GroupItem} {read : LinkedRead}

theorem elements_addBound (read : LinkedRead) (bound : String) :
    (read.addBound bound).elements =
      if ⟨bound, none⟩ ∈ read.elements then read.elements
      else read.elements ++ [⟨bound, none⟩] := by
  have hany : (read.elements.any fun e => e.grain.isNone && e.name == bound) = true ↔
      ⟨bound, none⟩ ∈ read.elements := by
    rw [List.any_eq_true]
    constructor
    · rintro ⟨⟨name, grain⟩, hmem, hbound⟩
      simp only [Bool.and_eq_true, Option.isNone_iff_eq_none, beq_iff_eq] at hbound
      obtain ⟨rfl, rfl⟩ := hbound
      exact hmem
    · intro hmem
      exact ⟨_, hmem, by simp⟩
  unfold addBound
  simp only [hany]
  split <;> rfl

/-- A read ends with the bounds of its window that it did not have. -/
theorem elements_widened_eq (read : LinkedRead) :
    read.widened.elements = read.elements ++
      ((read.model.window.toList.flatMap fun window =>
        [window.start, window.stop].eraseDups).filter fun bound =>
          ⟨bound, none⟩ ∉ read.elements).map fun bound => ⟨bound, none⟩ := by
  unfold widened
  cases hwindow : read.model.window with
  | none => simp
  | some window =>
      obtain ⟨start, stop⟩ := window
      simp only [elements_addBound, Option.toList_some, List.flatMap_singleton]
      by_cases hsame : start = stop
      · subst hsame
        by_cases hstart : ⟨start, none⟩ ∈ read.elements <;>
          simp [hstart, List.eraseDups_cons]
      · by_cases hstart : ⟨start, none⟩ ∈ read.elements <;>
          by_cases hstop : ⟨stop, none⟩ ∈ read.elements <;>
          simp [hstart, hstop, Ne.symm hsame, List.eraseDups_cons]

theorem Collects.model?_eq (h : read.Collects manifest anchor items)
    (hmodels : (manifest.models.map (·.name)).Nodup) :
    manifest.model? read.model.name = some read.model := by
  have hsome : (manifest.model? read.model.name).isSome := by
    rw [Manifest.model?, List.find?_isSome]
    exact ⟨read.model, h.model_mem, by simp⟩
  obtain ⟨found, hfound⟩ := Option.isSome_iff_exists.mp hsome
  have hname : found.name = read.model.name := by simpa using List.find?_some hfound
  rw [hfound, List.inj_on_of_nodup_map hmodels (List.mem_of_find?_eq_some hfound)
    h.model_mem hname]

/-- Behind the entity a read has dimensions only. -/
theorem Collects.dimension_of_mem_tail (h : read.Collects manifest anchor items)
    (hmanifest : manifest.Orderly) {ref : ElementRef}
    (href : ref ∈ read.widened.elements.tail) :
    ∃ dimension ∈ read.model.dimensions, dimension.name = ref.name := by
  rw [elements_widened_eq, h.elements_eq, List.cons_append, List.tail_cons,
    List.mem_append] at href
  rcases href with href | href
  · obtain ⟨item, hitem, rfl⟩ := List.mem_map.mp href
    obtain ⟨-, hlink⟩ := List.mem_filter.mp hitem
    obtain ⟨-, hmodel⟩ := h.linkedModel?_eq hmanifest.models (by simpa using hlink)
    obtain ⟨-, dimension, hdimension⟩ := Manifest.linkedModel?_eq_some hmodel
    exact ⟨dimension, Model.dimension?_mem hdimension⟩
  · obtain ⟨bound, hbound, rfl⟩ := List.mem_map.mp href
    obtain ⟨hbound, -⟩ := List.mem_filter.mp hbound
    obtain ⟨window, hwindow, hbound⟩ := List.mem_flatMap.mp hbound
    obtain ⟨⟨start, hstart, hstartName, -⟩, stop, hstop, hstopName, -⟩ :=
      hmanifest.windows _ h.model_mem window (by simpa using hwindow)
    rw [List.mem_eraseDups, List.mem_cons, List.mem_singleton] at hbound
    rcases hbound with rfl | rfl
    · exact ⟨start, hstart, hstartName⟩
    · exact ⟨stop, hstop, hstopName⟩

theorem Collects.columnName_ne (h : read.Collects manifest anchor items)
    (hmanifest : manifest.Orderly) {ref : ElementRef}
    (href : ref ∈ read.widened.elements.tail) : ref.columnName ≠ read.entity := by
  obtain ⟨entity, hentity⟩ := h.entity?
  obtain ⟨dimension, hdimension, hname⟩ := h.dimension_of_mem_tail hmanifest href
  intro heq
  have hplain := hmanifest.unqualified _ h.model_mem _ (Model.name_mem_of_entity? hentity)
  have hsame : ref.name = read.entity :=
    congrArg ElementRef.name (ElementRef.eq_of_columnName hplain heq)
  exact Model.ne_entity (hmanifest.elements _ h.model_mem) hdimension hentity
    (hname.trans hsame)

theorem Collects.elements_widened (h : read.Collects manifest anchor items)
    (hmanifest : manifest.Orderly) :
    read.widened.elements = ⟨read.entity, none⟩ ::
      ((manifest.itemsOf anchor items read.link).map GroupItem.element ++
        (manifest.boundsAdded anchor items read.link).map fun bound => ⟨bound, none⟩) := by
  have hwindow : (manifest.model? read.link.2).bind (·.window) = read.model.window := by
    rw [link, h.model?_eq hmanifest.models]
    rfl
  rw [elements_widened_eq, Manifest.boundsAdded, hwindow]
  rw [← List.cons_append, Manifest.itemsOf, ← h.elements_eq]
  congr 2
  refine List.filter_congr fun bound hbound => ?_
  have hne : (⟨bound, none⟩ : ElementRef) ≠ ⟨read.entity, none⟩ := by
    obtain ⟨window, hmem, hbound⟩ := List.mem_flatMap.mp hbound
    obtain ⟨⟨start, hstart, hstartName, -⟩, stop, hstop, hstopName, -⟩ :=
      hmanifest.windows _ h.model_mem window (by simpa using hmem)
    obtain ⟨entity, hentity⟩ := h.entity?
    have hnodup := hmanifest.elements _ h.model_mem
    rw [List.mem_eraseDups, List.mem_cons, List.mem_singleton] at hbound
    intro heq
    have heq : bound = read.entity := congrArg ElementRef.name heq
    rcases hbound with rfl | rfl
    · exact Model.ne_entity hnodup hstart hentity (hstartName.trans heq)
    · exact Model.ne_entity hnodup hstop hentity (hstopName.trans heq)
  rw [h.elements_eq]
  simp [hne]

theorem Collects.outputs_eq (h : read.Collects manifest anchor items)
    (hmanifest : manifest.Orderly) : read.widened.outputs = read.widened.elements.tail := by
  have htail : ∀ ref ∈ read.widened.elements.tail,
      (ref.columnName != read.widened.entity) = true := by
    intro ref href
    rw [read.widens_widened.entity_eq]
    simpa using h.columnName_ne hmanifest href
  rw [outputs]
  rw [h.elements_widened hmanifest, List.tail_cons] at htail ⊢
  rw [List.filter_cons_of_neg (by simp [ElementRef.columnName, read.widens_widened.entity_eq])]
  exact List.filter_eq_self.mpr htail

/-- What a read adds to the rows: the columns of its items, and the bounds that are
not asked for. -/
theorem Collects.output_names (h : read.Collects manifest anchor items)
    (hmanifest : manifest.Orderly) :
    read.widened.outputs.map (fun ref => qualified read.widened.entity ref.columnName) =
      (manifest.itemsOf anchor items read.link).map (·.columnName) ++
        (manifest.boundsAdded anchor items read.link).map (qualified read.link.1) := by
  rw [h.outputs_eq hmanifest, h.elements_widened hmanifest, List.tail_cons, List.map_append,
    List.map_map, List.map_map, read.widens_widened.entity_eq]
  congr 1
  refine List.map_congr_left fun item hitem => ?_
  obtain ⟨-, hlink⟩ := List.mem_filter.mp hitem
  obtain ⟨hvia, -⟩ := h.linkedModel?_eq hmanifest.models (by simpa using hlink)
  exact (GroupItem.columnName_eq_qualified hvia).symm

end LinkedRead

/-! ## Names in the join -/

section Names

variable {manifest : Manifest} {request : Request} {resolved : Resolved}

theorem Manifest.flatMap_itemsOf_perm {anchor : Model} {items : List GroupItem}
    (h : ∀ item ∈ items, manifest.Resolves anchor item) :
    ((manifest.links anchor items).flatMap (manifest.itemsOf anchor items)).Perm
      (items.filter fun item => !item.via.isNone) := by
  have hkeys : ((manifest.links anchor items).map some).Nodup :=
    (nodup_eraseDups _).map (Option.some_injective _)
  have hcover : ∀ item ∈ items.filter fun item => !item.via.isNone,
      manifest.linkName? anchor item ∈ (manifest.links anchor items).map some := by
    intro item hitem
    obtain ⟨hmem, hvia⟩ := List.mem_filter.mp hitem
    cases hentity : item.via with
    | none => simp [hentity] at hvia
    | some entity =>
        obtain ⟨-, model, hmodel⟩ :=
          (Manifest.resolves_iff_of_linked hentity).mp (h item hmem)
        have hlink := Manifest.linkName?_of_linked hentity hmodel
        rw [hlink]
        refine List.mem_map_of_mem ?_
        rw [Manifest.links, List.mem_eraseDups]
        exact List.mem_filterMap.mpr ⟨item, hmem, hlink⟩
  have hsame : (manifest.links anchor items).flatMap (manifest.itemsOf anchor items) =
      ((manifest.links anchor items).map some).flatMap fun key =>
        (items.filter fun item => !item.via.isNone).filter fun item =>
          manifest.linkName? anchor item = key := by
    rw [List.flatMap_map]
    refine List.flatMap_congr fun link _ => ?_
    rw [Manifest.itemsOf, List.filter_filter]
    refine List.filter_congr fun item _ => ?_
    by_cases hlink : manifest.linkName? anchor item = some link
    · obtain ⟨hvia, -⟩ := Manifest.linkName?_eq_some hlink
      simp [hlink, hvia]
    · simp [hlink]
  rw [hsame]
  exact flatMap_filter_perm hkeys hcover

/-- The names of the linked columns: those of the linked items, and bounds. -/
theorem Resolved.linkedNames_perm (hmanifest : manifest.Orderly)
    (hsorted : resolved.Sorted manifest request) :
    (resolved.linked.flatMap fun read =>
        read.outputs.map fun ref => qualified read.entity ref.columnName).Perm
      ((request.groupBy.filter fun item => !item.via.isNone).map (·.columnName) ++
        manifest.addedBounds resolved.anchor request.groupBy) := by
  have heach : (resolved.linked.flatMap fun read =>
        read.outputs.map fun ref => qualified read.entity ref.columnName) =
      (manifest.links resolved.anchor request.groupBy).flatMap fun link =>
        (manifest.itemsOf resolved.anchor request.groupBy link).map (·.columnName) ++
          (manifest.boundsAdded resolved.anchor request.groupBy link).map
            (qualified link.1) := by
    rw [← hsorted.linked_eq, List.flatMap_map]
    refine List.flatMap_congr fun read hread => ?_
    obtain ⟨before, hcollects, rfl⟩ := hsorted.collects read hread
    rw [hcollects.output_names hmanifest, LinkedRead.widened_link]
  rw [heach]
  refine (List.flatMap_append_perm _ _ _).symm.trans (List.Perm.append ?_ (.refl _))
  rw [← List.map_flatMap]
  exact (Manifest.flatMap_itemsOf_perm hsorted.resolves).map _

theorem Resolved.Extends.columnNames {plain : List String}
    (h : resolved.Extends request plain) :
    resolved.elements.map ElementRef.columnName =
      (request.groupBy.filter fun item => item.via.isNone).map (·.columnName) ++ plain := by
  rw [h.elements_eq, List.map_append, List.map_map, List.map_map]
  refine congrArg₂ _ (List.map_congr_left fun item hitem => ?_) (List.map_id plain)
  have hvia : item.via = none := by simpa using (List.mem_filter.mp hitem).2
  exact (GroupItem.columnName_of_local hvia).symm

theorem Resolved.joinNames_perm (hmanifest : manifest.Orderly)
    (hsorted : resolved.Sorted manifest request) {plain : List String}
    (hextends : resolved.Extends request plain) :
    resolved.joinNames.Perm
      (request.groupBy.map (·.columnName) ++
        manifest.addedBounds resolved.anchor request.groupBy ++ plain) := by
  have hitems : ((request.groupBy.filter fun item => item.via.isNone).map (·.columnName) ++
      (request.groupBy.filter fun item => !item.via.isNone).map (·.columnName)).Perm
        (request.groupBy.map (·.columnName)) := by
    rw [← List.map_append]
    exact (List.filter_append_perm _ _).map _
  rw [Resolved.joinNames, hextends.columnNames]
  refine ((Resolved.linkedNames_perm hmanifest hsorted).append_left _).trans ?_
  -- What is not asked for goes to the end.
  rw [List.append_assoc]
  refine (List.perm_append_comm.append_left _).trans ?_
  simpa only [List.append_assoc] using hitems.append_right
    (manifest.addedBounds resolved.anchor request.groupBy ++ plain)

/-- Only bounds can meet other names in the join. -/
theorem Resolved.joinNames_nodup_iff (hmanifest : manifest.Orderly)
    (hsorted : resolved.Sorted manifest request) {plain : List String}
    (hextends : resolved.Extends request plain)
    (hanchor : resolved.anchor ∈ manifest.models) :
    resolved.joinNames.Nodup ↔
      (request.groupBy.map (·.columnName) ++
        manifest.addedBounds resolved.anchor request.groupBy).Nodup := by
  rw [(Resolved.joinNames_perm hmanifest hsorted hextends).nodup_iff, List.nodup_append]
  refine ⟨fun h => h.1, fun h => ⟨h, hextends.nodup, ?_⟩⟩
  rintro name hname other hother rfl
  have hplain := hmanifest.unqualified _ hanchor _ (hextends.name_mem name hother)
  rcases List.mem_append.mp hname with hitem | hbound
  · obtain ⟨item, hmem, rfl⟩ := List.mem_map.mp hitem
    cases hvia : item.via with
    | none =>
        exact hextends.name_new _ hother item hmem hvia
          (GroupItem.columnName_of_local hvia).symm
    | some entity =>
        rw [GroupItem.columnName_eq_qualified hvia] at hplain
        exact not_unqualified_qualified _ _ hplain
  · obtain ⟨link, -, hbound⟩ := List.mem_flatMap.mp hbound
    obtain ⟨bound, -, rfl⟩ := List.mem_map.mp hbound
    exact not_unqualified_qualified _ _ hplain

theorem LinkedRead.Collects.nodup_columnNames {anchor : Model} {items : List GroupItem}
    {read : LinkedRead} (h : read.Collects manifest anchor items)
    (hmanifest : manifest.Orderly) (hitems : (items.map (·.columnName)).Nodup) :
    (read.widened.elements.map ElementRef.columnName).Nodup := by
  have hentity : read.entity ∉ read.widened.elements.tail.map ElementRef.columnName := by
    intro hmem
    obtain ⟨ref, href, heq⟩ := List.mem_map.mp hmem
    exact h.columnName_ne hmanifest href heq
  have hbounds : ∀ bound ∈ manifest.boundsAdded anchor items read.link, Unqualified bound := by
    intro bound hbound
    have htail : (⟨bound, none⟩ : ElementRef) ∈ read.widened.elements.tail := by
      rw [h.elements_widened hmanifest]
      exact List.mem_append_right _ (List.mem_map.mpr ⟨bound, hbound, rfl⟩)
    obtain ⟨dimension, hdimension, rfl⟩ := h.dimension_of_mem_tail hmanifest htail
    exact hmanifest.unqualified _ h.model_mem _ (List.mem_append_left _
      (List.mem_append_right _ (List.mem_map_of_mem hdimension)))
  rw [h.elements_widened hmanifest] at hentity ⊢
  refine List.nodup_cons.mpr ⟨hentity, ?_⟩
  rw [List.map_append, List.nodup_append, List.map_map, List.map_map]
  refine ⟨?_, ?_, ?_⟩
  · have hsub : ((manifest.itemsOf anchor items read.link).map (·.columnName)).Nodup :=
      hitems.sublist (List.filter_sublist.map _)
    have hqualified : (manifest.itemsOf anchor items read.link).map (·.columnName) =
        ((manifest.itemsOf anchor items read.link).map
          (ElementRef.columnName ∘ GroupItem.element)).map (qualified read.entity) := by
      rw [List.map_map]
      refine List.map_congr_left fun item hitem => ?_
      obtain ⟨-, hlink⟩ := List.mem_filter.mp hitem
      obtain ⟨hvia, -⟩ := h.linkedModel?_eq hmanifest.models (by simpa using hlink)
      exact GroupItem.columnName_eq_qualified hvia
    rw [hqualified] at hsub
    exact hsub.of_map _
  · have hnodup : (manifest.boundsAdded anchor items read.link).Nodup := by
      refine List.Nodup.filter _ ?_
      cases (manifest.model? read.link.2).bind (·.window) with
      | none => simp
      | some window => simpa using nodup_eraseDups [window.start, window.stop]
    exact (List.map_id _).symm ▸ hnodup
  · rintro name hname other hother rfl
    obtain ⟨item, hitem, hcolumn⟩ := List.mem_map.mp hname
    obtain ⟨bound, hbound, rfl⟩ := List.mem_map.mp hother
    have heq := ElementRef.eq_of_columnName (hbounds bound hbound) hcolumn
    obtain ⟨-, hnew⟩ := List.mem_filter.mp hbound
    exact of_decide_eq_true hnew (heq ▸ List.mem_map_of_mem hitem)

theorem Resolved.nodup_columnNames (hmanifest : manifest.Orderly)
    (hsorted : resolved.Sorted manifest request) {plain : List String}
    (hextends : resolved.Extends request plain)
    (hitems : (request.groupBy.map (·.columnName)).Nodup) :
    ∀ model elements, (model, elements) ∈ resolved.reads →
      (elements.map ElementRef.columnName).Nodup := by
  intro model elements hreads
  rcases List.mem_cons.mp hreads with heq | hlinked
  · cases heq
    rw [hextends.columnNames, List.nodup_append]
    refine ⟨hitems.sublist (List.filter_sublist.map _), hextends.nodup, ?_⟩
    rintro name hname other hother rfl
    obtain ⟨item, hitem, rfl⟩ := List.mem_map.mp hname
    obtain ⟨hmem, hvia⟩ := List.mem_filter.mp hitem
    have hvia : item.via = none := by simpa using hvia
    exact hextends.name_new _ hother item hmem hvia (GroupItem.columnName_of_local hvia).symm
  · obtain ⟨read, hread, heq⟩ := List.mem_map.mp hlinked
    cases heq
    obtain ⟨before, hcollects, rfl⟩ := hsorted.collects read hread
    exact hcollects.nodup_columnNames hmanifest hitems

end Names

/-! ## Resolvable requests -/

namespace Manifest.Resolvable

variable {manifest : Manifest} {request : Request} {anchor : Model} {resolved : Resolved}
  {failure : Failure}

theorem not_refuses (h : manifest.Resolvable request anchor) :
    ¬ manifest.Refuses request failure :=
  h.anchors.not_refuses h.items h.time (List.nodup_append.mp h.names).1

theorem checkGrain?_eq_ok (h : manifest.Resolvable request resolved.anchor)
    (hmodels : (manifest.models.map (·.name)).Nodup)
    (hsorted : resolved.Sorted manifest request) {model : Model} {elements : List ElementRef}
    (hreads : (model, elements) ∈ resolved.reads) {ref : ElementRef} (href : ref ∈ elements)
    {element : Element} (helement : model.element? ref.name = some element) :
    Model.checkGrain? element ref = .ok () := by
  -- Whatever is not asked for is not truncated.
  have hplain : ref.grain = none → Model.checkGrain? element ref = .ok () := by
    intro hnone
    simp [Model.checkGrain?, hnone]
  rcases List.mem_cons.mp hreads with heq | hlinked
  · cases heq
    rcases hsorted.element_cases ref href with ⟨item, hitem, hvia, rfl⟩ |
      ⟨entity, -, hnone⟩ | ⟨dimension, -, rfl⟩ | ⟨term, -, rfl⟩
    · refine h.grains item hitem element ?_
      simpa [Manifest.itemElement?, hvia, GroupItem.element] using helement
    · exact hplain hnone
    · exact hplain rfl
    · exact hplain rfl
  · obtain ⟨read, hread, heq⟩ := List.mem_map.mp hlinked
    cases heq
    obtain ⟨before, hcollects, rfl⟩ := hsorted.collects read hread
    rw [before.widens_widened.model_eq] at helement
    rcases LinkedRead.mem_widened href with href | ⟨window, -, rfl | rfl⟩
    · rw [hcollects.elements_eq, List.mem_cons] at href
      rcases href with rfl | href
      · exact hplain rfl
      · obtain ⟨item, hitem, rfl⟩ := List.mem_map.mp href
        obtain ⟨hmem, hlink⟩ := List.mem_filter.mp hitem
        obtain ⟨hvia, hmodel⟩ := hcollects.linkedModel?_eq hmodels (by simpa using hlink)
        refine h.grains item hmem element ?_
        simpa [Manifest.itemElement?, hvia, hmodel, GroupItem.element] using helement
    · exact hplain rfl
    · exact hplain rfl

/-- Where a column of the name of an entity is read, it has the type of the entity. -/
theorem dataType_of_readsType {model : Model} {entity : Entity} {name : String}
    (hname : Unqualified name) (hentity : model.entity? name = some entity)
    {elements : List ElementRef} {dataType : DataType}
    (h : model.ReadsType elements name dataType) : dataType = entity.dataType := by
  obtain ⟨ref, -, hcolumn, element, helement, htype⟩ := h
  rw [ElementRef.eq_of_columnName hname hcolumn, Model.element?_of_entity? hentity] at helement
  cases helement
  exact (Option.some.inj htype).symm

theorem columnName_ne_measure (h : manifest.Resolvable request anchor)
    (hmanifest : manifest.Orderly) {metrics : List Metric} {terms : List MeasureTerm}
    (hmeasured : manifest.Measured metrics anchor terms) {item : GroupItem}
    (hitem : item ∈ request.groupBy) {term : MeasureTerm} (hterm : term ∈ terms) :
    item.columnName ≠ term.name := by
  obtain ⟨-, measure, hmeasure, -⟩ := hmeasured.found term hterm
  obtain ⟨found, hfound, -⟩ := Model.element?_of_measure? hmeasure
  have hname := hmanifest.unqualified _ hmeasured.anchor_mem _ (Model.name_mem_of_element? hfound)
  intro heq
  cases hvia : item.via with
  | none =>
      obtain ⟨element, helement, hrole⟩ :=
        (Manifest.resolves_iff_of_local hvia).mp (h.items item hitem)
      rw [GroupItem.columnName_of_local hvia] at heq
      have hsame : item.name = term.name :=
        congrArg ElementRef.name (ElementRef.eq_of_columnName hname heq)
      rw [hsame] at helement
      rw [hmanifest.consistent.measure_role hmeasured.anchor_mem hmeasure helement] at hrole
      exact absurd hrole (by decide)
  | some entity =>
      rw [← heq, GroupItem.columnName_eq_qualified hvia] at hname
      exact not_unqualified_qualified _ _ hname

theorem obstacle (h : manifest.Resolvable request anchor) (hmanifest : manifest.Orderly)
    (hresolve : manifest.resolve request = .ok resolved)
    (hobstacle : resolved.Obstacle failure) :
    (∃ name, failure = .duplicateColumn .join name) ∧ ¬ resolved.joinNames.Nodup := by
  have hsorted := Manifest.resolve_sorted hresolve
  obtain ⟨plain, hextends⟩ := Manifest.resolve_extends hmanifest hresolve
  obtain ⟨-, hmetrics, hmeasures, hkeys, -⟩ := Manifest.resolve_eq_ok hresolve
  have hmeasured := Manifest.resolveMeasures_measured hmanifest.models hmeasures
  obtain rfl := h.anchors.unique (hmeasured.anchors hmetrics)
  have hitems := (List.nodup_append.mp h.names).1
  have hmetricNames := Manifest.map_metric_names hmetrics
  have huses : ∀ term ∈ resolved.measures, manifest.Uses request term.name := by
    intro term hterm
    rw [Manifest.uses_iff hmetrics, ← List.mem_eraseDups, ← hmeasured.names_eq]
    exact List.mem_map_of_mem hterm
  cases hobstacle with
  | joinNames hnot => exact ⟨⟨_, rfl⟩, hnot⟩
  | grain hread href helement hfail =>
      have hok := h.checkGrain?_eq_ok hmanifest.models hsorted hread href helement
      cases hok.symm.trans hfail
  | readNames hread hnot =>
      exact absurd (Resolved.nodup_columnNames hmanifest hsorted hextends hitems _ _ hread) hnot
  | keyTypes hread hleft hright hne =>
      obtain ⟨before, hcollects, rfl⟩ := hsorted.collects _ hread
      have hwidens := before.widens_widened
      rw [hwidens.entity_eq] at hleft hright
      rw [hwidens.model_eq] at hright
      obtain ⟨item, hitem, hvia, hmodel⟩ := hcollects.found
      obtain ⟨⟨left, hleftEntity⟩, -⟩ :=
        (Manifest.resolves_iff_of_linked hvia).mp (h.items item hitem)
      obtain ⟨right, hrightEntity⟩ := hcollects.entity?
      have hname := hmanifest.unqualified _ hmeasured.anchor_mem _
        (Model.name_mem_of_entity? hleftEntity)
      exfalso
      apply hne
      rw [dataType_of_readsType hname hleftEntity hleft,
        dataType_of_readsType hname hrightEntity hright]
      exact h.keyTypes item hitem _ _ _ _ hvia hmodel hleftEntity hrightEntity
  | percentile hterm haggregation hrange =>
      obtain ⟨-, measure, hmeasure, hsame⟩ := hmeasured.found _ hterm
      exact absurd (h.percentiles _ measure (huses _ hterm) hmeasure _ _ _
        (hsame.trans haggregation)) hrange
  | aggregateNames hnot =>
      exfalso
      apply hnot
      rw [hkeys, List.nodup_append, hmeasured.names_eq]
      refine ⟨hitems, nodup_eraseDups _, ?_⟩
      rintro name hname other hother rfl
      rw [← hmeasured.names_eq] at hother
      obtain ⟨item, hitem, rfl⟩ := List.mem_map.mp hname
      obtain ⟨term, hterm, hsame⟩ := List.mem_map.mp hother
      exact h.columnName_ne_measure hmanifest hmeasured hitem hterm hsame.symm
  | literal hmetric hvalue hfinite =>
      obtain ⟨name, hname, hfound⟩ := forall₂_exists_left hmetrics hmetric
      cases (h.literals name hname _ hfound _ hvalue).symm.trans hfinite
  | metricNames hnot =>
      rw [hkeys, hmetricNames] at hnot
      exact absurd h.names hnot

end Manifest.Resolvable

/-- A resolvable request is built exactly if the bounds that are added to it differ from
each other and from the columns that it asks for; nothing else can fail. -/
theorem Manifest.plan_ok_iff {manifest : Manifest} {request : Request} {anchor : Model}
    (hmanifest : manifest.Orderly) (hrequest : manifest.Resolvable request anchor) :
    ((∃ plan, manifest.plan request = .ok plan) ↔
        (request.groupBy.map (·.columnName) ++
          manifest.addedBounds anchor request.groupBy).Nodup) ∧
      ∀ failure, manifest.plan request = .error failure →
        ∃ name, failure = .duplicateColumn .join name := by
  cases hresolve : manifest.resolve request with
  | error failure =>
      exact absurd (Manifest.resolve_eq_error hmanifest.models hresolve) hrequest.not_refuses
  | ok resolved =>
      have hplan : manifest.plan request = resolved.plan := by
        rw [Manifest.plan, hresolve]
        rfl
      have hsorted := Manifest.resolve_sorted hresolve
      obtain ⟨plain, hextends⟩ := Manifest.resolve_extends hmanifest hresolve
      obtain ⟨-, hmetrics, hmeasures, -⟩ := Manifest.resolve_eq_ok hresolve
      have hmeasured := Manifest.resolveMeasures_measured hmanifest.models hmeasures
      obtain rfl := hrequest.anchors.unique (hmeasured.anchors hmetrics)
      have hfailure : ∀ failure, resolved.plan = .error failure →
          (∃ name, failure = .duplicateColumn .join name) ∧ ¬ resolved.joinNames.Nodup := by
        intro failure hfail
        exact hrequest.obstacle hmanifest hresolve
          (Resolved.plan_eq_error hmanifest.consistent hresolve hfail)
      rw [hplan, ← Resolved.joinNames_nodup_iff hmanifest hsorted hextends
        hmeasured.anchor_mem]
      refine ⟨⟨?_, ?_⟩, fun failure hfail => (hfailure failure hfail).1⟩
      · rintro ⟨plan, hok⟩
        obtain ⟨primary, targets, joined, -, s₁, s₂, s₃, -, -, hread, hreads, hjoin, -⟩ :=
          Resolved.plan_eq_ok hok
        rw [← Resolved.joined_columnNames hread hreads hjoin]
        exact Plan.joinTargets_nodup hjoin (Model.read_columnNames hread).2
      · intro hnodup
        cases hbuilt : resolved.plan with
        | ok plan => exact ⟨plan, rfl⟩
        | error failure => exact absurd hnodup (hfailure failure hbuilt).2

/-! ## Two histories of listings -/

namespace Sample

/-- The status of listings, which changes over time as well. -/
def statuses : Model where
  name := "statuses"
  table := { name := "dim_statuses" }
  entities := [
    { name := "listing", expression := some "id", kind := .natural, dataType := .int }]
  dimensions := [
    { name := "status", kind := .categorical, dataType := .string },
    { name := "since", kind := .time, dataType := .date },
    { name := "until", kind := .time, dataType := .date }]
  window := some ⟨"since", "until"⟩

def histories : Manifest := { manifest with models := [bookings, listings, statuses] }

theorem histories_orderly : histories.Orderly where
  models := by decide
  elements := by decide
  unqualified := by
    unfold Unqualified
    decide
  windows := by decide

def byMonth : GroupItem := { name := "ds", grain := some .month }

def byCountry : GroupItem := { name := "country", via := some "listing" }

def byStatus : GroupItem := { name := "status", via := some "listing" }

/-- Whatever of the three is asked for, there is nothing wrong with it. -/
theorem histories_resolvable {items : List GroupItem}
    (hitems : ∀ item ∈ items, item = byMonth ∨ item = byCountry ∨ item = byStatus)
    (hnames : (items.map (·.columnName) ++ ["half"]).Nodup) :
    histories.Resolvable { metrics := ["half"], groupBy := items } bookings := by
  have hhalf : histories.metric? "half" =
      some { name := "half", formula := .ratio (.input "amount") (.literal 2.0) } := rfl
  have hamount : ∀ input, histories.Uses { metrics := ["half"], groupBy := items } input →
      input = "amount" := by
    rintro input ⟨name, hname, metric, hmetric, hinput⟩
    rw [List.mem_singleton.mp hname] at hmetric
    cases hhalf.symm.trans hmetric
    simpa [Metric.inputs, Formula.mem_inputs, Formula.leaves] using hinput
  have hcountry : histories.linkedModel? "listing" "country" "bookings" = some listings := rfl
  have hstatus : histories.linkedModel? "listing" "status" "bookings" = some statuses := rfl
  refine ⟨⟨?_, ?_, ?_⟩, ?_, ?_, ?_, ?_, ?_, ?_, hnames⟩
  · intro name hname
    rw [List.mem_singleton.mp hname]
    exact ⟨_, hhalf⟩
  · intro input huses
    rw [hamount input huses]
    rfl
  · exact ⟨"amount", "half", by simp, _, hhalf, by decide⟩
  · intro item hitem
    rcases hitems item hitem with rfl | rfl | rfl
    · exact ⟨_, rfl, rfl⟩
    · exact ⟨⟨_, rfl⟩, _, hcountry⟩
    · exact ⟨⟨_, rfl⟩, _, hstatus⟩
  · intro item hitem element helement
    rcases hitems item hitem with rfl | rfl | rfl
    · cases helement
      rfl
    · rfl
    · rfl
  · intro item hitem entity model left right hvia hmodel hleft hright
    rcases hitems item hitem with rfl | rfl | rfl
    · cases hvia
    · cases hvia
      cases hcountry.symm.trans hmodel
      cases hleft
      cases hright
      rfl
    · cases hvia
      cases hstatus.symm.trans hmodel
      cases hleft
      cases hright
      rfl
  · intro _ _ _ _ _ _ _ hnone
    cases hnone
  · intro input measure huses hmeasure fraction discrete approximate hpercentile
    rw [hamount input huses] at hmeasure
    cases hmeasure
    cases hpercentile
  · intro name hname metric hmetric value hvalue
    rw [List.mem_singleton.mp hname] at hmetric
    cases hhalf.symm.trans hmetric
    have htwo : value = 2.0 := by simpa [Formula.literals] using hvalue
    rw [htwo]
    decide +kernel

/-- One history can be asked for. -/
theorem one_history_builds :
    histories.Orderly ∧
      histories.Resolvable { metrics := ["half"], groupBy := [byMonth, byCountry] } bookings ∧
      ∃ plan, histories.plan { metrics := ["half"], groupBy := [byMonth, byCountry] } =
        .ok plan := by
  have hresolvable : histories.Resolvable
      { metrics := ["half"], groupBy := [byMonth, byCountry] } bookings :=
    histories_resolvable (by simp) (by decide)
  exact ⟨histories_orderly, hresolvable,
    (Manifest.plan_ok_iff histories_orderly hresolvable).1.mpr (by decide +kernel)⟩

/-- Two cannot: both bring bounds that nobody asked for, under the same names. -/
theorem two_histories_collide :
    histories.Orderly ∧
      histories.Resolvable { metrics := ["half"], groupBy := [byCountry, byStatus] } bookings ∧
      histories.plan { metrics := ["half"], groupBy := [byCountry, byStatus] } =
        .error (.duplicateColumn .join "listing__since") :=
  ⟨histories_orderly, histories_resolvable (by simp) (by decide), by rfl⟩

end Sample

end MetricSql
