import MetricSql.Proofs.Plan.Session

/-!
# What the builder reads

A request is resolved into what has to be read from the anchor and from each
linked model.  The lemmas below say that the builder adds what its joins need:
the link entities, the bounds of validity windows and the time that lies in
them, all without a grain.
-/

namespace MetricSql

/-! ## Names -/

/-- The name has no two adjacent underscores. -/
def Unqualified (name : String) : Prop := ¬ ['_', '_'] <:+: name.toList

theorem not_unqualified_qualified (a b : String) : ¬ Unqualified (qualified a b) := by
  intro h
  apply h
  refine ⟨a.toList, b.toList, ?_⟩
  simp [qualified]

/-- A column with such a name holds an element that is not truncated. -/
theorem ElementRef.eq_of_columnName {ref : ElementRef} {name : String}
    (hname : Unqualified name) (h : ref.columnName = name) : ref = ⟨name, none⟩ := by
  obtain ⟨given, grain⟩ := ref
  cases grain with
  | none =>
      simp only [columnName] at h
      rw [h]
  | some grain =>
      simp only [columnName] at h
      exact absurd hname (h ▸ not_unqualified_qualified _ _)

theorem mem_addElement_of_mem {elements : List ElementRef} {ref : ElementRef}
    (name : String) (h : ref ∈ elements) : ref ∈ addElement elements name := by
  unfold addElement
  split
  · exact h
  · exact List.mem_append_left _ h

/-- After `addElement` the element is there, and not truncated. -/
theorem self_mem_addElement {elements : List ElementRef} {name : String}
    (hname : Unqualified name) : ⟨name, none⟩ ∈ addElement elements name := by
  unfold addElement
  split
  next hany =>
    obtain ⟨ref, hmem, hcolumn⟩ := List.any_eq_true.mp hany
    have heq := ElementRef.eq_of_columnName hname (by simpa using hcolumn)
    exact heq ▸ hmem
  next => simp

theorem mem_foldl_addElement_of_mem {names : List String} {elements : List ElementRef}
    {ref : ElementRef} (h : ref ∈ elements) : ref ∈ names.foldl addElement elements := by
  induction names generalizing elements with
  | nil => exact h
  | cons name rest ih => exact ih (mem_addElement_of_mem name h)

theorem self_mem_foldl_addElement {names : List String} {elements : List ElementRef}
    {name : String} (hmem : name ∈ names) (hname : Unqualified name) :
    ⟨name, none⟩ ∈ names.foldl addElement elements := by
  induction names generalizing elements with
  | nil => cases hmem
  | cons first rest ih =>
      rw [List.foldl_cons]
      rcases List.mem_cons.mp hmem with rfl | hmem
      · exact mem_foldl_addElement_of_mem (self_mem_addElement hname)
      · exact ih hmem

/-! ## Elements of a model -/

namespace Model

theorem entity?_mem {model : Model} {name : String} {entity : Entity}
    (h : model.entity? name = some entity) :
    entity ∈ model.entities ∧ entity.name = name :=
  ⟨List.mem_of_find?_eq_some h, by simpa using List.find?_some h⟩

theorem dimension?_mem {model : Model} {name : String} {dimension : Dimension}
    (h : model.dimension? name = some dimension) :
    dimension ∈ model.dimensions ∧ dimension.name = name :=
  ⟨List.mem_of_find?_eq_some h, by simpa using List.find?_some h⟩

theorem measure?_mem {model : Model} {name : String} {measure : Measure}
    (h : model.measure? name = some measure) :
    measure ∈ model.measures ∧ measure.name = name :=
  ⟨List.mem_of_find?_eq_some h, by simpa using List.find?_some h⟩

theorem name_mem_of_entity? {model : Model} {name : String} {entity : Entity}
    (h : model.entity? name = some entity) : name ∈ model.elementNames := by
  obtain ⟨hmem, rfl⟩ := entity?_mem h
  simp only [elementNames, List.mem_append, List.mem_map]
  exact .inl (.inl ⟨entity, hmem, rfl⟩)

theorem name_mem_of_timeDimension? {model : Model} {dimension : Dimension}
    (h : model.timeDimension? = some dimension) :
    dimension.name ∈ model.elementNames := by
  have hmem := List.mem_of_find?_eq_some h
  simp only [elementNames, List.mem_append, List.mem_map]
  exact .inl (.inr ⟨dimension, hmem, rfl⟩)

end Model

/-! ## Linked reads -/

namespace LinkedRead

/-- A read through an entity of the anchor, which reads that entity too. -/
structure WellFormed (manifest : Manifest) (links : List String) (read : LinkedRead) :
    Prop where
  model_mem : read.model ∈ manifest.models
  entity_mem : read.entity ∈ links
  key_mem : ⟨read.entity, none⟩ ∈ read.elements

theorem add_wellFormed {manifest : Manifest} {links : List String} {entity : String}
    {model : Model} {element : ElementRef} {reads : List LinkedRead}
    (hmodel : model ∈ manifest.models) (hentity : entity ∈ links)
    (hreads : ∀ read ∈ reads, read.WellFormed manifest links) :
    ∀ read ∈ add entity model element reads, read.WellFormed manifest links := by
  induction reads with
  | nil =>
      intro read hread
      rw [add, List.mem_singleton] at hread
      subst hread
      exact ⟨hmodel, hentity, by simp⟩
  | cons first rest ih =>
      have hfirst := hreads first List.mem_cons_self
      have hrest : ∀ read ∈ rest, read.WellFormed manifest links :=
        fun read h => hreads read (List.mem_cons_of_mem _ h)
      intro read hread
      rw [add] at hread
      split at hread
      next =>
        rcases List.mem_cons.mp hread with rfl | hread
        · exact ⟨hfirst.model_mem, hfirst.entity_mem,
            List.mem_append_left _ hfirst.key_mem⟩
        · exact hrest read hread
      next =>
        rcases List.mem_cons.mp hread with rfl | hread
        · exact hfirst
        · exact ih hrest read hread

/-- The read of an item: the same entity and model, and the element is read. -/
def Serves (entity : String) (model : Model) (element : ElementRef)
    (reads : List LinkedRead) : Prop :=
  ∃ read ∈ reads, read.entity = entity ∧ read.model = model ∧ element ∈ read.elements

theorem add_serves {manifest : Manifest} {entity : String} {model : Model}
    {element : ElementRef} {reads : List LinkedRead}
    (hnames : (manifest.models.map (·.name)).Nodup) (hmodel : model ∈ manifest.models)
    (hreads : ∀ read ∈ reads, read.model ∈ manifest.models) :
    Serves entity model element (add entity model element reads) := by
  induction reads with
  | nil => exact ⟨_, List.mem_singleton.mpr rfl, rfl, rfl, by simp⟩
  | cons first rest ih =>
      rw [add]
      split
      next hthrough =>
        simp only [isThrough, Bool.and_eq_true, beq_iff_eq] at hthrough
        have hsame : first.model = model :=
          List.inj_on_of_nodup_map hnames (hreads first List.mem_cons_self) hmodel
            hthrough.2
        exact ⟨_, List.mem_cons_self, hthrough.1, hsame, by simp⟩
      next =>
        obtain ⟨read, hmem, hserves⟩ :=
          ih fun read h => hreads read (List.mem_cons_of_mem _ h)
        exact ⟨read, List.mem_cons_of_mem _ hmem, hserves⟩

theorem Serves.add {entity other : String} {model model' : Model}
    {element element' : ElementRef} {reads : List LinkedRead}
    (h : Serves entity model element reads) :
    Serves entity model element (add other model' element' reads) := by
  induction reads with
  | nil =>
      obtain ⟨read, hmem, -⟩ := h
      cases hmem
  | cons first rest ih =>
      obtain ⟨read, hmem, hentity, hmodel, helement⟩ := h
      rw [LinkedRead.add]
      split
      next =>
        rcases List.mem_cons.mp hmem with rfl | hmem
        · exact ⟨_, List.mem_cons_self, hentity, hmodel,
            List.mem_append_left _ helement⟩
        · exact ⟨read, List.mem_cons_of_mem _ hmem, hentity, hmodel, helement⟩
      next =>
        rcases List.mem_cons.mp hmem with rfl | hmem
        · exact ⟨read, List.mem_cons_self, hentity, hmodel, helement⟩
        · obtain ⟨found, hfound, hserves⟩ := ih ⟨read, hmem, hentity, hmodel, helement⟩
          exact ⟨found, List.mem_cons_of_mem _ hfound, hserves⟩

/-- What adding windows does to a read: elements are only added, and the bounds of
the window are among them. -/
structure Widens (before after : LinkedRead) : Prop where
  entity_eq : after.entity = before.entity
  model_eq : after.model = before.model
  elements_mem : ∀ ref ∈ before.elements, ref ∈ after.elements

theorem addBound_widens (read : LinkedRead) (bound : String) :
    read.Widens (read.addBound bound) := by
  unfold addBound
  split
  · exact ⟨rfl, rfl, fun ref h => h⟩
  · exact ⟨rfl, rfl, fun ref h => List.mem_append_left _ h⟩

theorem self_mem_addBound (read : LinkedRead) (bound : String) :
    ⟨bound, none⟩ ∈ (read.addBound bound).elements := by
  unfold addBound
  split
  next hany =>
    obtain ⟨ref, hmem, hbound⟩ := List.any_eq_true.mp hany
    obtain ⟨name, grain⟩ := ref
    simp only [Bool.and_eq_true, Option.isNone_iff_eq_none, beq_iff_eq] at hbound
    obtain ⟨rfl, rfl⟩ := hbound
    exact hmem
  next => simp

/-- The bounds of the window are read, and `time` is the time of the anchor. -/
structure Bounded (anchor : Model) (time : Option String) (read : LinkedRead)
    (window : ValidityWindow) : Prop where
  start_mem : ⟨window.start, none⟩ ∈ read.elements
  stop_mem : ⟨window.stop, none⟩ ∈ read.elements
  time_eq : ∃ dimension, anchor.timeDimension? = some dimension ∧
    time = some dimension.name

theorem addWindow_eq_ok {anchor : Model} {read after : LinkedRead}
    {time : Option String} (h : read.addWindow anchor = .ok (after, time)) :
    read.Widens after ∧
      (∀ window, read.model.window = some window → Bounded anchor time after window) ∧
      (time = none ∨ time = anchor.timeDimension?.map (·.name)) := by
  unfold addWindow at h
  split at h
  next hnone =>
    cases h
    refine ⟨⟨rfl, rfl, fun ref h => h⟩, ?_, .inl rfl⟩
    intro window hwindow
    rw [hnone] at hwindow
    cases hwindow
  next window hwindow =>
    split at h
    next => cases h
    next dimension htime =>
      cases h
      have hstart := addBound_widens read window.start
      have hstop := addBound_widens (read.addBound window.start) window.stop
      refine ⟨⟨hstop.entity_eq.trans hstart.entity_eq,
        hstop.model_eq.trans hstart.model_eq,
        fun ref h => hstop.elements_mem ref (hstart.elements_mem ref h)⟩, ?_,
        .inr (by rw [htime]; rfl)⟩
      intro other hother
      rw [hwindow] at hother
      cases hother
      exact ⟨hstop.elements_mem _ (self_mem_addBound read window.start),
        self_mem_addBound _ window.stop, dimension, htime, rfl⟩

theorem addWindows_eq_ok {anchor : Model} {reads afters : List LinkedRead}
    {time : Option String} (h : addWindows anchor reads = .ok (afters, time)) :
    List.Forall₂ Widens reads afters ∧
      (∀ after ∈ afters, ∀ window, after.model.window = some window →
        Bounded anchor time after window) ∧
      (time = none ∨ time = anchor.timeDimension?.map (·.name)) := by
  induction reads generalizing afters time with
  | nil =>
      cases h
      exact ⟨.nil, by simp, .inl rfl⟩
  | cons read rest ih =>
      simp only [addWindows, bind_eq_ok] at h
      obtain ⟨⟨after, own⟩, hread, ⟨others, otherTime⟩, hrest, ⟨⟩⟩ := h
      obtain ⟨hwidens, hwindow, hown⟩ := addWindow_eq_ok hread
      obtain ⟨hall, hwindows, hother⟩ := ih hrest
      -- Every window is about the one time of the anchor, so either is right.
      have htime : ∀ {t : Option String}, (t = own ∨ t = otherTime) →
          (∃ dimension, anchor.timeDimension? = some dimension ∧
            t = some dimension.name) →
          ∃ dimension, anchor.timeDimension? = some dimension ∧
            otherTime.or own = some dimension.name := by
        rintro t ht ⟨dimension, hdimension, rfl⟩
        refine ⟨dimension, hdimension, ?_⟩
        rw [hdimension] at hown hother
        rcases ht with rfl | rfl
        · rcases hother with rfl | rfl <;> rfl
        · rfl
      refine ⟨.cons hwidens hall, ?_, ?_⟩
      · intro found hfound window hmodel
        rcases List.mem_cons.mp hfound with rfl | hfound
        · have hbounded := hwindow window (hwidens.model_eq ▸ hmodel)
          exact ⟨hbounded.start_mem, hbounded.stop_mem,
            htime (.inl rfl) hbounded.time_eq⟩
        · have hbounded := hwindows found hfound window hmodel
          exact ⟨hbounded.start_mem, hbounded.stop_mem,
            htime (.inr rfl) hbounded.time_eq⟩
      · rcases hother with rfl | rfl
        · simpa using hown
        · rcases hown with rfl | rfl <;> simp

end LinkedRead

/-! ## Group items -/

theorem Manifest.linkedModel?_mem {manifest : Manifest}
    {entity dimension exclude : String} {model : Model}
    (h : manifest.linkedModel? entity dimension exclude = some model) :
    model ∈ manifest.models :=
  List.mem_of_find?_eq_some h

theorem Manifest.resolveLinked_eq_ok {manifest : Manifest} {anchor model : Model}
    {entity : String} {item : GroupItem}
    (h : manifest.resolveLinked anchor entity item = .ok model) :
    (∃ found, anchor.entity? entity = some found) ∧
      manifest.linkedModel? entity item.name anchor.name = some model := by
  unfold Manifest.resolveLinked at h
  split at h
  next => cases h
  next found hentity =>
    split at h
    next other hmodel =>
      cases h
      exact ⟨⟨found, hentity⟩, hmodel⟩
    next => cases h

/-- What the items read: everything asked for, and nothing through an entity that
the anchor does not have. -/
structure Grouping.Covers (manifest : Manifest) (anchor : Model) (items : List GroupItem)
    (grouping : Grouping) : Prop where
  links_mem : ∀ entity ∈ grouping.links, ∃ found, anchor.entity? entity = some found
  linked : ∀ read ∈ grouping.linked, read.WellFormed manifest grouping.links
  element_mem : ∀ item ∈ items, item.via = none → item.element ∈ grouping.elements
  serves : ∀ item ∈ items, ∀ entity, item.via = some entity →
    ∃ model, manifest.linkedModel? entity item.name anchor.name = some model ∧
      LinkedRead.Serves entity model item.element grouping.linked

theorem LinkedRead.WellFormed.mono {manifest : Manifest} {links links' : List String}
    {read : LinkedRead} (h : read.WellFormed manifest links) (hsub : links ⊆ links') :
    read.WellFormed manifest links' :=
  ⟨h.model_mem, hsub h.entity_mem, h.key_mem⟩

theorem Grouping.addItem_covers {manifest : Manifest} {anchor : Model}
    (hnames : (manifest.models.map (·.name)).Nodup) {items : List GroupItem}
    {grouping grouping' : Grouping} {item : GroupItem}
    (hcovers : grouping.Covers manifest anchor items)
    (h : grouping.addItem manifest anchor item = .ok grouping') :
    grouping'.Covers manifest anchor (items ++ [item]) := by
  unfold Grouping.addItem at h
  split at h
  next hvia =>
    simp only [bind_eq_ok] at h
    obtain ⟨⟨⟩, -, ⟨⟩⟩ := h
    refine ⟨hcovers.links_mem, hcovers.linked, ?_, ?_⟩
    · intro other hother hlocal
      rcases List.mem_append.mp hother with hother | hother
      · exact List.mem_append_left _ (hcovers.element_mem other hother hlocal)
      · rw [List.mem_singleton.mp hother]
        simp
    · intro other hother entity hentity
      rcases List.mem_append.mp hother with hother | hother
      · exact hcovers.serves other hother entity hentity
      · rw [List.mem_singleton.mp hother, hvia] at hentity
        cases hentity
  next entity hvia =>
    simp only [bind_eq_ok] at h
    obtain ⟨model, hresolve, ⟨⟩⟩ := h
    obtain ⟨hentity, hmodel⟩ := Manifest.resolveLinked_eq_ok hresolve
    have hmem := Manifest.linkedModel?_mem hmodel
    set links := if grouping.links.contains entity then grouping.links
      else grouping.links ++ [entity] with hlinks
    have hiff : ∀ name, name ∈ links ↔ name ∈ grouping.links ∨ name = entity := by
      intro name
      rw [hlinks]
      split
      next hcontains =>
        have : entity ∈ grouping.links := by simpa using hcontains
        constructor
        · exact .inl
        · rintro (hname | rfl)
          · exact hname
          · exact this
      next => simp
    have hold : ∀ read ∈ grouping.linked, read.WellFormed manifest links :=
      fun read hread => (hcovers.linked read hread).mono
        fun name hname => (hiff name).mpr (.inl hname)
    refine ⟨?_, LinkedRead.add_wellFormed hmem ((hiff entity).mpr (.inr rfl)) hold, ?_, ?_⟩
    · intro name hname
      rcases (hiff name).mp hname with hname | rfl
      · exact hcovers.links_mem name hname
      · exact hentity
    · intro other hother hlocal
      rcases List.mem_append.mp hother with hother | hother
      · exact hcovers.element_mem other hother hlocal
      · rw [List.mem_singleton.mp hother, hvia] at hlocal
        cases hlocal
    · intro other hother name hname
      rcases List.mem_append.mp hother with hother | hother
      · obtain ⟨found, hfound, hserves⟩ := hcovers.serves other hother name hname
        exact ⟨found, hfound, hserves.add⟩
      · rw [List.mem_singleton.mp hother] at hname ⊢
        rw [hvia] at hname
        cases hname
        exact ⟨model, hmodel, LinkedRead.add_serves hnames hmem
          fun read hread => (hcovers.linked read hread).model_mem⟩

theorem Manifest.resolveGroups_covers {manifest : Manifest} {anchor : Model}
    {items : List GroupItem} {grouping : Grouping}
    (hnames : (manifest.models.map (·.name)).Nodup)
    (h : manifest.resolveGroups anchor items = .ok grouping) :
    grouping.Covers manifest anchor items := by
  have hempty : Grouping.Covers manifest anchor [] {} :=
    ⟨by simp, by simp, by simp, by simp⟩
  exact foldlM_induction (P := Grouping.Covers manifest anchor)
    (Grouping.addItem_covers hnames) hempty h

/-! ## Resolved requests -/

theorem MeasureSet.addInput_mem {manifest : Manifest} {metric : Metric}
    {set set' : MeasureSet} {input : String}
    (hset : ∀ model, set.anchor = some model → model ∈ manifest.models)
    (h : set.addInput manifest metric input = .ok set') :
    ∀ model, set'.anchor = some model → model ∈ manifest.models := by
  unfold MeasureSet.addInput at h
  split at h
  next =>
    cases h
    exact hset
  next =>
    split at h
    next => cases h
    next found hfound =>
      unfold MeasureSet.insert at h
      dsimp only at h
      split at h
      next anchor hanchor =>
        split at h
        next =>
          cases h
          intro model hmodel
          exact hset model (hanchor.trans hmodel)
        next => cases h
      next =>
        cases h
        rintro model ⟨⟩
        exact List.mem_of_find?_eq_some hfound

theorem Manifest.anchor_mem {manifest : Manifest} {metrics : List Metric}
    {anchor : Model} {measures : List MeasureTerm}
    (h : manifest.resolveMeasures metrics = .ok (anchor, measures)) :
    anchor ∈ manifest.models := by
  simp only [Manifest.resolveMeasures, bind_eq_ok] at h
  obtain ⟨set, hset, h⟩ := h
  have hmem : ∀ model, set.anchor = some model → model ∈ manifest.models := by
    refine foldlM_induction (P := fun _ (set : MeasureSet) =>
      ∀ model, set.anchor = some model → model ∈ manifest.models) ?_ ?_ hset
    · intro _ set metric set' hset hmetric
      exact foldlM_induction (P := fun _ (set : MeasureSet) =>
        ∀ model, set.anchor = some model → model ∈ manifest.models)
        (fun hset hinput => MeasureSet.addInput_mem hset hinput) hset hmetric
    · simp
  split at h
  next found hfound =>
    cases h
    exact hmem anchor hfound
  next => cases h

/-- What a resolved request reads: the keys and times of all joins are among the
elements of both sides, not truncated, and every group item is served. -/
structure Resolved.Complete (manifest : Manifest) (request : Request)
    (resolved : Resolved) : Prop where
  anchor_mem : resolved.anchor ∈ manifest.models
  model_mem : ∀ read ∈ resolved.linked, read.model ∈ manifest.models
  key_mem : ∀ read ∈ resolved.linked, ⟨read.entity, none⟩ ∈ read.elements
  link_mem : ∀ read ∈ resolved.linked, ⟨read.entity, none⟩ ∈ resolved.elements
  bounded : ∀ read ∈ resolved.linked, ∀ window, read.model.window = some window →
    LinkedRead.Bounded resolved.anchor resolved.time read window
  time_mem : ∀ time, resolved.time = some time → ⟨time, none⟩ ∈ resolved.elements
  element_mem : ∀ item ∈ request.groupBy, item.via = none →
    item.element ∈ resolved.elements
  serves : ∀ item ∈ request.groupBy, ∀ entity, item.via = some entity →
    ∃ model,
      manifest.linkedModel? entity item.name resolved.anchor.name = some model ∧
        LinkedRead.Serves entity model item.element resolved.linked

theorem LinkedRead.Serves.widens {entity : String} {model : Model}
    {element : ElementRef} {reads afters : List LinkedRead}
    (hwidens : List.Forall₂ Widens reads afters)
    (h : Serves entity model element reads) : Serves entity model element afters := by
  obtain ⟨read, hread, hentity, hmodel, helement⟩ := h
  obtain ⟨after, hafter, hwiden⟩ := forall₂_exists_left hwidens.flip hread
  exact ⟨after, hafter, hwiden.entity_eq.trans hentity, hwiden.model_eq.trans hmodel,
    hwiden.elements_mem element helement⟩

theorem Manifest.resolve_complete {manifest : Manifest} {request : Request}
    {resolved : Resolved} (hmodels : (manifest.models.map (·.name)).Nodup)
    (helements : ∀ model ∈ manifest.models, ∀ name ∈ model.elementNames,
      Unqualified name)
    (h : manifest.resolve request = .ok resolved) :
    resolved.Complete manifest request := by
  unfold Manifest.resolve at h
  cases hmetrics : request.metrics with
  | nil =>
      rw [hmetrics] at h
      cases h
  | cons metric rest =>
      simp only [hmetrics, List.isEmpty_cons, Bool.false_eq_true, if_false,
        bind_eq_ok] at h
      obtain ⟨metrics, -, ⟨anchor, measures⟩, hmeasures, grouping, hgrouping,
        ⟨linked, time⟩, hwindows, keys, -, ⟨⟩⟩ := h
      have hanchor := Manifest.anchor_mem hmeasures
      have hnames := helements anchor hanchor
      have hcovers := Manifest.resolveGroups_covers hmodels hgrouping
      obtain ⟨hwidens, hbounded, htime⟩ := LinkedRead.addWindows_eq_ok hwindows
      have hold : ∀ read ∈ linked, ∃ before ∈ grouping.linked, before.Widens read :=
        fun read hread => forall₂_exists_left hwidens hread
      refine ⟨hanchor, ?_, ?_, ?_, hbounded, ?_, ?_, ?_⟩
      · intro read hread
        obtain ⟨before, hbefore, hwiden⟩ := hold read hread
        rw [hwiden.model_eq]
        exact (hcovers.linked before hbefore).model_mem
      · intro read hread
        obtain ⟨before, hbefore, hwiden⟩ := hold read hread
        rw [hwiden.entity_eq]
        exact hwiden.elements_mem _ (hcovers.linked before hbefore).key_mem
      · intro read hread
        obtain ⟨before, hbefore, hwiden⟩ := hold read hread
        rw [hwiden.entity_eq]
        have hlink := (hcovers.linked before hbefore).entity_mem
        obtain ⟨found, hfound⟩ := hcovers.links_mem _ hlink
        have hname := hnames _ (Model.name_mem_of_entity? hfound)
        exact List.mem_append_left _
          (mem_foldl_addElement_of_mem (self_mem_foldl_addElement hlink hname))
      · rintro name rfl
        refine List.mem_append_left _ (self_mem_foldl_addElement (by simp) ?_)
        rcases htime with hnone | hsome
        · cases hnone
        · obtain ⟨dimension, hdimension, rfl⟩ := Option.map_eq_some_iff.mp hsome.symm
          exact hnames _ (Model.name_mem_of_timeDimension? hdimension)
      · intro item hitem hvia
        exact List.mem_append_left _ (mem_foldl_addElement_of_mem
          (mem_foldl_addElement_of_mem (hcovers.element_mem item hitem hvia)))
      · intro item hitem entity hvia
        obtain ⟨model, hmodel, hserves⟩ := hcovers.serves item hitem entity hvia
        exact ⟨model, hmodel, hserves.widens hwidens⟩

/-! ## Stages of a built plan -/

/-- The target reads exactly the elements of the linked model. -/
def LinkedRead.IsTarget (time : Option String) (read : LinkedRead) (target : JoinTarget) :
    Prop :=
  ∃ node before after, read.model.read read.elements before = (.ok node, after) ∧
    target = read.target time node

/-- The linked models are read one after the other, each under the next alias. -/
theorem LinkedRead.readAll_eq_ok {time : Option String} {reads : List LinkedRead}
    {supply supply' : AliasSupply} {targets : List JoinTarget}
    (h : readAll time reads supply = .ok (targets, supply')) :
    List.Forall₂ (IsTarget time) reads targets ∧
      targets.map (·.node.aliasName) =
        (List.range' supply.subqueries reads.length).map AliasSupply.subqueryAlias := by
  induction reads generalizing supply targets with
  | nil =>
      cases h
      exact ⟨.nil, rfl⟩
  | cons read rest ih =>
      rw [readAll] at h
      split at h
      next => cases h
      next node middle hread =>
        simp only [bind_eq_ok] at h
        obtain ⟨⟨others, last⟩, hrest, ⟨⟩⟩ := h
        obtain ⟨hothers, haliases⟩ := ih hrest
        refine ⟨.cons ⟨node, supply, middle, hread, rfl⟩ hothers, ?_⟩
        obtain ⟨-, columns, -, rfl, rfl⟩ := Model.read_eq_ok.mp hread
        rw [List.map_cons, haliases]
        rfl

theorem Resolved.plan_eq_ok {resolved : Resolved} {plan : Plan}
    (h : resolved.plan = .ok plan) :
    ∃ primary targets joined aggregated s₁ s₂ s₃ s₄ s₅,
      resolved.anchor.read resolved.elements {} = (.ok primary, s₁) ∧
        LinkedRead.readAll resolved.time resolved.linked s₁ = .ok (targets, s₂) ∧
        primary.joinTargets targets s₂ = (.ok joined, s₃) ∧
        joined.aggregateBy resolved.keys resolved.measures s₃ = (.ok aggregated, s₄) ∧
        aggregated.computeMetrics (resolved.metrics.map fun m => ⟨m.name, m.formula⟩) s₄ =
          (.ok plan, s₅) := by
  unfold Resolved.plan at h
  split at h
  next => cases h
  next primary s₁ hread =>
    simp only [bind_eq_ok] at h
    obtain ⟨⟨targets, s₂⟩, htargets, h⟩ := h
    split at h
    next => cases h
    next joined s₃ hjoin =>
      split at h
      next => cases h
      next aggregated s₄ haggregate =>
        exact ⟨primary, targets, joined, aggregated, s₁, s₂, s₃, s₄, _, hread, htargets,
          hjoin, haggregate, Prod.ext h rfl⟩

end MetricSql
