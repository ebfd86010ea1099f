import MetricSql.Proofs.Plan.Resolution

/-!
# Resolved requests

A request that is resolved has metrics and measures of one model, and says what
is read from this model and from those linked to it.  All that is read beside
what was asked for are the entities of the links, the bounds of validity windows
and the time that lies in them.
-/

namespace MetricSql

/-! ## Inputs of formulas -/

namespace Formula

/-- The inputs from left to right, as often as they occur. -/
def leaves : Formula → List String
  | input name => [name]
  | literal _ => []
  | neg operand => operand.leaves
  | binary _ left right => left.leaves ++ right.leaves
  | ratio numerator denominator => numerator.leaves ++ denominator.leaves

def literals : Formula → List Float
  | input _ => []
  | literal value => [value]
  | neg operand => operand.literals
  | binary _ left right => left.literals ++ right.literals
  | ratio numerator denominator => numerator.literals ++ denominator.literals

theorem addInputs_eraseDups (names : List String) (formula : Formula) :
    formula.addInputs names.eraseDups = (names ++ formula.leaves).eraseDups := by
  induction formula generalizing names with
  | input name =>
      rw [addInputs, leaves]
      split
      next hmem =>
        rw [List.contains_iff_mem, List.mem_eraseDups] at hmem
        rw [eraseDups_concat_of_mem hmem]
      next hnot =>
        rw [List.contains_iff_mem, List.mem_eraseDups] at hnot
        rw [eraseDups_concat_of_not_mem hnot]
  | literal value => simp [addInputs, leaves]
  | neg operand ih => exact ih names
  | binary operator left right ihleft ihright =>
      rw [addInputs, ihleft, ihright, leaves, List.append_assoc]
  | ratio numerator denominator ihnumerator ihdenominator =>
      rw [addInputs, ihnumerator, ihdenominator, leaves, List.append_assoc]

theorem inputs_eq (formula : Formula) : formula.inputs = formula.leaves.eraseDups :=
  addInputs_eraseDups [] formula

theorem mem_inputs {formula : Formula} {name : String} :
    name ∈ formula.inputs ↔ name ∈ formula.leaves := by
  rw [inputs_eq, List.mem_eraseDups]

end Formula

/-! ## Measures -/

namespace MeasureSet

/-- The measures of the inputs so far: each once, in the order of first use, and
all from models with the name of the anchor. -/
structure Collects (manifest : Manifest) (inputs : List String) (set : MeasureSet) :
    Prop where
  names_eq : set.terms.map (·.name) = inputs.eraseDups
  anchor_eq : set.anchor = none ↔ inputs = []
  anchor_found : ∀ anchor, set.anchor = some anchor →
    ∃ input ∈ inputs, manifest.modelOfMeasure? input = some anchor
  found : ∀ term ∈ set.terms, ∃ anchor model measure, set.anchor = some anchor ∧
    manifest.modelOfMeasure? term.name = some model ∧ model.name = anchor.name ∧
    model.measure? term.name = some measure ∧ measure.aggregation = term.aggregation

variable {manifest : Manifest} {metric : Metric} {inputs : List String} {input : String}
  {set set' : MeasureSet}

theorem measure?_of_modelOfMeasure? {model : Model}
    (h : manifest.modelOfMeasure? input = some model) :
    ∃ measure, model.measure? input = some measure := by
  have hsome := List.find?_some h
  exact Option.isSome_iff_exists.mp (by simpa using hsome)

theorem insert_eq_ok {model : Model} {measure : Measure}
    (hmeasure : model.measure? input = some measure)
    (h : set.insert model input = .ok set') :
    ∃ anchor, set'.anchor = some anchor ∧ anchor.name = model.name ∧
      (set.anchor = none ∧ anchor = model ∨ set.anchor = some anchor) ∧
      set'.terms = set.terms ++ [⟨input, measure.aggregation⟩] := by
  obtain ⟨-, hname⟩ := Model.measure?_mem hmeasure
  simp only [insert, hmeasure, Option.map_some, Option.toList_some, hname] at h
  split at h
  next anchor hanchor =>
    split at h
    next heq =>
      cases h
      exact ⟨anchor, rfl, heq, .inr hanchor, rfl⟩
    next => cases h
  next hanchor =>
    cases h
    exact ⟨model, rfl, rfl, .inl ⟨hanchor, rfl⟩, rfl⟩

theorem addInput_collects (hset : set.Collects manifest inputs)
    (h : set.addInput manifest metric input = .ok set') :
    set'.Collects manifest (inputs ++ [input]) := by
  have hmem : set.terms.any (·.name == input) = true ↔ input ∈ inputs := by
    rw [← List.mem_eraseDups, ← hset.names_eq]
    simp
  unfold addInput at h
  split at h
  next hany =>
    cases h
    have hinput := hmem.mp hany
    have hne : inputs ≠ [] := List.ne_nil_of_mem hinput
    refine ⟨?_, ?_, ?_, hset.found⟩
    · rw [eraseDups_concat_of_mem hinput]
      exact hset.names_eq
    · simp [hset.anchor_eq, hne]
    · intro anchor hanchor
      obtain ⟨found, hfound, hmodel⟩ := hset.anchor_found anchor hanchor
      exact ⟨found, List.mem_append_left _ hfound, hmodel⟩
  next hany =>
    have hnew : input ∉ inputs := fun hinput => hany (hmem.mpr hinput)
    split at h
    next => cases h
    next model hmodel =>
      obtain ⟨measure, hmeasure⟩ := measure?_of_modelOfMeasure? hmodel
      obtain ⟨anchor, hanchor, hname, hold, hterms⟩ := insert_eq_ok hmeasure h
      refine ⟨?_, by simp [hanchor], ?_, ?_⟩
      · rw [hterms, eraseDups_concat_of_not_mem hnew, List.map_append, hset.names_eq]
        rfl
      · rintro _ hsome
        cases hanchor.symm.trans hsome
        rcases hold with ⟨-, rfl⟩ | hold
        · exact ⟨input, by simp, hmodel⟩
        · obtain ⟨found, hfound, hanchored⟩ := hset.anchor_found anchor hold
          exact ⟨found, List.mem_append_left _ hfound, hanchored⟩
      · rw [hterms, List.forall_mem_append]
        constructor
        · intro term hterm
          obtain ⟨first, found, foundMeasure, hfirst, hrest⟩ := hset.found term hterm
          rcases hold with ⟨hnone, -⟩ | hold
          · rw [hnone] at hfirst
            cases hfirst
          · cases hold.symm.trans hfirst
            exact ⟨anchor, found, foundMeasure, hanchor, hrest⟩
        · intro term hterm
          rw [List.mem_singleton.mp hterm]
          exact ⟨anchor, model, measure, hanchor, hmodel, hname.symm, hmeasure, rfl⟩

theorem addMetric_collects (hset : set.Collects manifest inputs)
    (h : set.addMetric manifest metric = .ok set') :
    set'.Collects manifest (inputs ++ metric.inputs) := by
  refine foldlM_induction (P := fun done (set : MeasureSet) =>
    set.Collects manifest (inputs ++ done)) ?_ (by simpa using hset) h
  intro done set input set' hset hinput
  rw [← List.append_assoc]
  exact addInput_collects hset hinput

theorem collects_empty : Collects manifest [] {} :=
  ⟨by simp, by simp, by simp, by simp⟩

theorem foldlM_collects {metrics : List Metric}
    (h : metrics.foldlM (addMetric manifest) {} = .ok set) :
    set.Collects manifest (metrics.flatMap Metric.inputs) := by
  refine foldlM_induction (P := fun done (set : MeasureSet) =>
    set.Collects manifest (done.flatMap Metric.inputs)) ?_ collects_empty h
  intro done set metric set' hset hmetric
  rw [List.flatMap_append, List.flatMap_singleton]
  exact addMetric_collects hset hmetric

end MeasureSet

/-- The measures of metrics: each input once, in the order of first use, all of
them defined by the anchor and aggregated as it says. -/
structure Manifest.Measured (manifest : Manifest) (metrics : List Metric) (anchor : Model)
    (terms : List MeasureTerm) : Prop where
  anchor_mem : anchor ∈ manifest.models
  names_eq : terms.map (·.name) = (metrics.flatMap Metric.inputs).eraseDups
  nonempty : terms ≠ []
  found : ∀ term ∈ terms, manifest.modelOfMeasure? term.name = some anchor ∧
    ∃ measure, anchor.measure? term.name = some measure ∧
      measure.aggregation = term.aggregation

theorem Manifest.resolveMeasures_measured {manifest : Manifest} {metrics : List Metric}
    {anchor : Model} {terms : List MeasureTerm}
    (hmodels : (manifest.models.map (·.name)).Nodup)
    (h : manifest.resolveMeasures metrics = .ok (anchor, terms)) :
    manifest.Measured metrics anchor terms := by
  have hmem := Manifest.anchor_mem h
  simp only [Manifest.resolveMeasures, bind_eq_ok] at h
  obtain ⟨set, hset, h⟩ := h
  have hcollects := MeasureSet.foldlM_collects hset
  split at h
  next found hfound =>
    cases h
    refine ⟨hmem, hcollects.names_eq, ?_, ?_⟩
    · intro hnone
      have hempty := hcollects.names_eq
      rw [hnone, List.map_nil] at hempty
      have hinputs : metrics.flatMap Metric.inputs = [] := by
        rw [List.eq_nil_iff_forall_not_mem]
        intro input hinput
        rw [← List.mem_eraseDups, ← hempty] at hinput
        cases hinput
      rw [hcollects.anchor_eq.mpr hinputs] at hfound
      cases hfound
    · intro term hterm
      obtain ⟨first, model, measure, hfirst, hmodel, hname, hmeasure⟩ :=
        hcollects.found term hterm
      cases hfound.symm.trans hfirst
      have hsame : model = anchor :=
        List.inj_on_of_nodup_map hmodels (List.mem_of_find?_eq_some hmodel) hmem hname
      subst hsame
      exact ⟨hmodel, measure, hmeasure⟩
  next => cases h

/-! ## Windows -/

namespace LinkedRead

/-- The read with the bounds of its window. -/
def widened (read : LinkedRead) : LinkedRead :=
  match read.model.window with
  | none => read
  | some window => (read.addBound window.start).addBound window.stop

theorem widens_widened (read : LinkedRead) : read.Widens read.widened := by
  unfold widened
  split
  · exact ⟨rfl, rfl, fun _ h => h⟩
  · next window _ =>
      have hstart := addBound_widens read window.start
      have hstop := addBound_widens (read.addBound window.start) window.stop
      exact ⟨hstop.entity_eq.trans hstart.entity_eq, hstop.model_eq.trans hstart.model_eq,
        fun ref h => hstop.elements_mem ref (hstart.elements_mem ref h)⟩

theorem widened_link (read : LinkedRead) : read.widened.link = read.link := by
  have hwidens := read.widens_widened
  rw [link, hwidens.entity_eq, hwidens.model_eq, link]

theorem mem_addBound {read : LinkedRead} {bound : String} {ref : ElementRef}
    (h : ref ∈ (read.addBound bound).elements) :
    ref ∈ read.elements ∨ ref = ⟨bound, none⟩ := by
  unfold addBound at h
  split at h
  · exact .inl h
  · simpa using h

/-- All that is added are the bounds of the window. -/
theorem mem_widened {read : LinkedRead} {ref : ElementRef}
    (h : ref ∈ read.widened.elements) :
    ref ∈ read.elements ∨ ∃ window, read.model.window = some window ∧
      (ref = ⟨window.start, none⟩ ∨ ref = ⟨window.stop, none⟩) := by
  unfold widened at h
  split at h
  · exact .inl h
  · next window hwindow =>
      rcases mem_addBound h with h | h
      · rcases mem_addBound h with h | h
        · exact .inl h
        · exact .inr ⟨window, hwindow, .inl h⟩
      · exact .inr ⟨window, hwindow, .inr h⟩

theorem addWindow_eq_widened {anchor : Model} {read after : LinkedRead}
    {time : Option String} (h : read.addWindow anchor = .ok (after, time)) :
    after = read.widened := by
  unfold addWindow at h
  cases hwindow : read.model.window with
  | none =>
      simp only [hwindow] at h
      cases h
      simp only [widened, hwindow]
  | some window =>
      simp only [hwindow] at h
      split at h
      next => cases h
      next =>
        cases h
        simp only [widened, hwindow]

/-- The time that windows are matched against is the time dimension of the anchor. -/
theorem addWindows_time {anchor : Model} {reads afters : List LinkedRead} {time : String}
    (h : addWindows anchor reads = .ok (afters, some time)) :
    ∃ dimension, anchor.timeDimension? = some dimension ∧ dimension.name = time := by
  obtain ⟨-, -, hnone | hname⟩ := addWindows_eq_ok h
  · cases hnone
  · exact Option.map_eq_some_iff.mp hname.symm

theorem addWindows_eq_map {anchor : Model} {reads afters : List LinkedRead}
    {time : Option String} (h : addWindows anchor reads = .ok (afters, time)) :
    afters = reads.map widened := by
  induction reads generalizing afters time with
  | nil =>
      cases h
      rfl
  | cons read rest ih =>
      simp only [addWindows, bind_eq_ok] at h
      obtain ⟨⟨after, own⟩, hread, ⟨others, otherTime⟩, hrest, ⟨⟩⟩ := h
      rw [addWindow_eq_widened hread, ih hrest, List.map_cons]

end LinkedRead

/-! ## Elements of the anchor -/

theorem mem_addElement {elements : List ElementRef} {name : String} {ref : ElementRef}
    (h : ref ∈ addElement elements name) : ref ∈ elements ∨ ref = ⟨name, none⟩ := by
  unfold addElement at h
  split at h
  · exact .inl h
  · simpa using h

theorem mem_foldl_addElement {names : List String} {elements : List ElementRef}
    {ref : ElementRef} (h : ref ∈ names.foldl addElement elements) :
    ref ∈ elements ∨ ∃ name ∈ names, ref = ⟨name, none⟩ := by
  induction names generalizing elements with
  | nil => exact .inl h
  | cons name rest ih =>
      rcases ih h with hold | ⟨other, hother, heq⟩
      · rcases mem_addElement hold with hold | heq
        · exact .inl hold
        · exact .inr ⟨name, List.mem_cons_self, heq⟩
      · exact .inr ⟨other, List.mem_cons_of_mem _ hother, heq⟩

/-- A column of the name is there afterwards, whatever it holds. -/
theorem exists_mem_addElement (elements : List ElementRef) (name : String) :
    ∃ ref ∈ addElement elements name, ref.columnName = name := by
  unfold addElement
  split
  next hany =>
    obtain ⟨ref, href, heq⟩ := List.any_eq_true.mp hany
    exact ⟨ref, href, by simpa using heq⟩
  next => exact ⟨⟨name, none⟩, by simp, rfl⟩

theorem exists_mem_foldl_addElement {names : List String} (elements : List ElementRef)
    {name : String} (hname : name ∈ names) :
    ∃ ref ∈ names.foldl addElement elements, ref.columnName = name := by
  induction names generalizing elements with
  | nil => cases hname
  | cons first rest ih =>
      rw [List.foldl_cons]
      rcases List.mem_cons.mp hname with rfl | hname
      · obtain ⟨ref, href, heq⟩ := exists_mem_addElement elements name
        exact ⟨ref, mem_foldl_addElement_of_mem href, heq⟩
      · exact ih _ hname

/-! ## Requests -/

theorem GroupKeys.ofNames_eq_ok {names : List String} {keys : GroupKeys}
    (h : GroupKeys.ofNames names = .ok keys) : keys.names = names := by
  unfold GroupKeys.ofNames at h
  split at h
  next => cases h
  next =>
    cases h
    rfl

theorem Manifest.resolveMetric_eq_ok {manifest : Manifest} {name : String} {metric : Metric} :
    manifest.resolveMetric name = .ok metric ↔ manifest.metric? name = some metric := by
  unfold Manifest.resolveMetric
  cases manifest.metric? name <;> simp

/-- The steps of a resolution. -/
theorem Manifest.resolve_eq_ok {manifest : Manifest} {request : Request}
    {resolved : Resolved} (h : manifest.resolve request = .ok resolved) :
    request.metrics ≠ [] ∧
      List.Forall₂ (fun name metric => manifest.metric? name = some metric)
        request.metrics resolved.metrics ∧
      manifest.resolveMeasures resolved.metrics = .ok (resolved.anchor, resolved.measures) ∧
      resolved.keys.names = request.groupBy.map (·.columnName) ∧
      ∃ grouping, manifest.resolveGroups resolved.anchor request.groupBy = .ok grouping ∧
        LinkedRead.addWindows resolved.anchor grouping.linked =
          .ok (resolved.linked, resolved.time) ∧
        resolved.elements =
          resolved.time.toList.foldl addElement
              (grouping.links.foldl addElement grouping.elements) ++
            resolved.measures.map fun term => ⟨term.name, none⟩ := by
  unfold Manifest.resolve at h
  cases hmetrics : request.metrics with
  | nil =>
      rw [hmetrics] at h
      cases h
  | cons metric rest =>
      simp only [hmetrics, List.isEmpty_cons, Bool.false_eq_true, if_false, bind_eq_ok,
        mapM_eq_ok, Manifest.resolveMetric_eq_ok] at h
      obtain ⟨metrics, hfound, ⟨anchor, measures⟩, hmeasures, grouping, hgrouping,
        ⟨linked, time⟩, hwindows, keys, hkeys, ⟨⟩⟩ := h
      exact ⟨by simp, hfound, hmeasures, GroupKeys.ofNames_eq_ok hkeys, grouping, hgrouping,
        hwindows, rfl⟩

theorem Manifest.map_metric_names {manifest : Manifest} {names : List String}
    {metrics : List Metric}
    (h : List.Forall₂ (fun name metric => manifest.metric? name = some metric) names metrics) :
    metrics.map (·.name) = names := by
  rw [← List.forall₂_eq_eq_eq, List.forall₂_map_left_iff]
  refine h.flip.imp fun metric name hmetric => ?_
  simpa using List.find?_some hmetric

/-- The input is one of a metric that is asked for. -/
def Manifest.Uses (manifest : Manifest) (request : Request) (input : String) : Prop :=
  ∃ name ∈ request.metrics, ∃ metric,
    manifest.metric? name = some metric ∧ input ∈ metric.inputs

theorem Manifest.uses_iff {manifest : Manifest} {request : Request} {metrics : List Metric}
    (h : List.Forall₂ (fun name metric => manifest.metric? name = some metric)
      request.metrics metrics) {input : String} :
    manifest.Uses request input ↔ input ∈ metrics.flatMap Metric.inputs := by
  rw [List.mem_flatMap]
  constructor
  · rintro ⟨name, hname, metric, hmetric, hinput⟩
    obtain ⟨found, hfound, heq⟩ := forall₂_exists_left h.flip hname
    cases hmetric.symm.trans heq
    exact ⟨metric, hfound, hinput⟩
  · rintro ⟨metric, hmetric, hinput⟩
    obtain ⟨name, hname, heq⟩ := forall₂_exists_left h hmetric
    exact ⟨name, hname, metric, heq, hinput⟩

/-- All metrics of the request are known, and their inputs, of which there is one
at least, are measures of the anchor. -/
structure Manifest.Anchors (manifest : Manifest) (request : Request) (anchor : Model) :
    Prop where
  known : ∀ name ∈ request.metrics, ∃ metric, manifest.metric? name = some metric
  found : ∀ input, manifest.Uses request input →
    manifest.modelOfMeasure? input = some anchor
  used : ∃ input, manifest.Uses request input

theorem Manifest.Measured.anchors {manifest : Manifest} {request : Request}
    {metrics : List Metric} {anchor : Model} {terms : List MeasureTerm}
    (h : manifest.Measured metrics anchor terms)
    (hmetrics : List.Forall₂ (fun name metric => manifest.metric? name = some metric)
      request.metrics metrics) :
    manifest.Anchors request anchor := by
  have hterm : ∀ input, manifest.Uses request input ↔ ∃ term ∈ terms, term.name = input := by
    intro input
    rw [Manifest.uses_iff hmetrics, ← List.mem_eraseDups, ← h.names_eq, List.mem_map]
  refine ⟨?_, ?_, ?_⟩
  · intro name hname
    obtain ⟨metric, -, hmetric⟩ := forall₂_exists_left hmetrics.flip hname
    exact ⟨metric, hmetric⟩
  · intro input huses
    obtain ⟨term, hmem, rfl⟩ := (hterm input).mp huses
    exact (h.found term hmem).1
  · obtain ⟨term, hmem⟩ := List.exists_mem_of_ne_nil _ h.nonempty
    exact ⟨term.name, (hterm _).mpr ⟨term, hmem, rfl⟩⟩

theorem Manifest.Anchors.unique {manifest : Manifest} {request : Request}
    {anchor anchor' : Model} (h : manifest.Anchors request anchor)
    (h' : manifest.Anchors request anchor') : anchor = anchor' := by
  obtain ⟨input, huses⟩ := h.used
  exact Option.some.inj ((h.found input huses).symm.trans (h'.found input huses))

/-- What is read for a request, and that it has all names that the joins and the
aggregation look up. -/
structure Resolved.Sorted (manifest : Manifest) (request : Request) (resolved : Resolved) :
    Prop where
  resolves : ∀ item ∈ request.groupBy, manifest.Resolves resolved.anchor item
  /-- One read for each link, of the items with that link and the bounds of the window. -/
  linked_eq : resolved.linked.map LinkedRead.link =
    manifest.links resolved.anchor request.groupBy
  collects : ∀ read ∈ resolved.linked, ∃ before : LinkedRead,
    before.Collects manifest resolved.anchor request.groupBy ∧ read = before.widened
  bounded : ∀ read ∈ resolved.linked, ∀ window, read.model.window = some window →
    LinkedRead.Bounded resolved.anchor resolved.time read window
  element_mem : ∀ item ∈ request.groupBy, item.via = none →
    item.element ∈ resolved.elements
  measure_mem : ∀ term ∈ resolved.measures, ⟨term.name, none⟩ ∈ resolved.elements
  link_mem : ∀ read ∈ resolved.linked, ∃ ref ∈ resolved.elements,
    ref.columnName = read.entity
  time_mem : ∀ time, resolved.time = some time → ∃ ref ∈ resolved.elements,
    ref.columnName = time
  /-- Nothing else is read from the anchor. -/
  element_cases : ∀ ref ∈ resolved.elements,
    (∃ item ∈ request.groupBy, item.via = none ∧ ref = item.element) ∨
      (∃ entity, resolved.anchor.entity? ref.name = some entity ∧ ref.grain = none) ∨
      (∃ dimension, resolved.anchor.timeDimension? = some dimension ∧
        ref = ⟨dimension.name, none⟩) ∨
      ∃ term ∈ resolved.measures, ref = ⟨term.name, none⟩

theorem Manifest.resolve_sorted {manifest : Manifest} {request : Request}
    {resolved : Resolved} (h : manifest.resolve request = .ok resolved) :
    resolved.Sorted manifest request := by
  obtain ⟨-, -, -, -, grouping, hgrouping, hwindows, helements⟩ := Manifest.resolve_eq_ok h
  have hsorts := Manifest.resolveGroups_sorts hgrouping
  have hlinked := LinkedRead.addWindows_eq_map hwindows
  obtain ⟨-, hbounded, -⟩ := LinkedRead.addWindows_eq_ok hwindows
  have hbefore : ∀ read ∈ resolved.linked, ∃ before ∈ grouping.linked,
      read = before.widened := by
    intro read hread
    rw [hlinked] at hread
    obtain ⟨before, hbefore, heq⟩ := List.mem_map.mp hread
    exact ⟨before, hbefore, heq.symm⟩
  have hold : ∀ ref ∈ grouping.elements, ref ∈ resolved.elements := by
    intro ref href
    rw [helements]
    exact List.mem_append_left _
      (mem_foldl_addElement_of_mem (mem_foldl_addElement_of_mem href))
  refine ⟨hsorts.resolves, ?_, ?_, hbounded, ?_, ?_, ?_, ?_, ?_⟩
  · rw [hlinked, ← hsorts.linked_eq, List.map_map]
    exact List.map_congr_left fun read _ => read.widened_link
  · intro read hread
    obtain ⟨before, hmem, heq⟩ := hbefore read hread
    exact ⟨before, hsorts.collects before hmem, heq⟩
  · intro item hitem hvia
    apply hold
    rw [hsorts.elements_eq]
    exact List.mem_map_of_mem (List.mem_filter.mpr ⟨hitem, by simp [hvia]⟩)
  · intro term hterm
    rw [helements]
    exact List.mem_append_right _ (List.mem_map.mpr ⟨term, hterm, rfl⟩)
  · intro read hread
    obtain ⟨before, hmem, rfl⟩ := hbefore read hread
    obtain ⟨item, hitem, hvia, -⟩ := (hsorts.collects before hmem).found
    have hlink : before.entity ∈ grouping.links := by
      rw [hsorts.links_eq, List.mem_eraseDups, List.mem_filterMap]
      exact ⟨item, hitem, hvia⟩
    obtain ⟨ref, href, heq⟩ :=
      exists_mem_foldl_addElement grouping.elements hlink
    refine ⟨ref, ?_, heq.trans before.widens_widened.entity_eq.symm⟩
    rw [helements]
    exact List.mem_append_left _ (mem_foldl_addElement_of_mem href)
  · intro time hsome
    have hmem : time ∈ resolved.time.toList := by simp [hsome]
    obtain ⟨ref, href, heq⟩ := exists_mem_foldl_addElement
      (grouping.links.foldl addElement grouping.elements) hmem
    exact ⟨ref, by rw [helements]; exact List.mem_append_left _ href, heq⟩
  · intro ref href
    rw [helements, List.mem_append] at href
    rcases href with href | href
    · rcases mem_foldl_addElement href with href | ⟨time, hmem, rfl⟩
      · rcases mem_foldl_addElement href with href | ⟨entity, hmem, rfl⟩
        · rw [hsorts.elements_eq] at href
          obtain ⟨item, hitem, rfl⟩ := List.mem_map.mp href
          obtain ⟨hitem, hvia⟩ := List.mem_filter.mp hitem
          exact .inl ⟨item, hitem, by simpa using hvia, rfl⟩
        · obtain ⟨found, hfound⟩ := hsorts.link_entity? hmem
          exact .inr (.inl ⟨found, hfound, rfl⟩)
      · have hsome : resolved.time = some time := by simpa using hmem
        rw [hsome] at hwindows
        obtain ⟨dimension, hdimension, rfl⟩ := LinkedRead.addWindows_time hwindows
        exact .inr (.inr (.inl ⟨dimension, hdimension, rfl⟩))
    · obtain ⟨term, hterm, rfl⟩ := List.mem_map.mp href
      exact .inr (.inr (.inr ⟨term, hterm, rfl⟩))

namespace LinkedRead

variable {manifest : Manifest} {anchor : Model} {items : List GroupItem}
  {item : GroupItem} {read : LinkedRead}

theorem Collects.model_mem (h : read.Collects manifest anchor items) :
    read.model ∈ manifest.models := by
  obtain ⟨item, -, -, hmodel⟩ := h.found
  exact Manifest.linkedModel?_mem hmodel

theorem Collects.entity? (h : read.Collects manifest anchor items) :
    ∃ entity, read.model.entity? read.entity = some entity := by
  obtain ⟨item, -, -, hmodel⟩ := h.found
  exact (Manifest.linkedModel?_eq_some hmodel).1

/-- Where models have different names, an item with the link of a read is found
in the model of the read. -/
theorem Collects.linkedModel?_eq (h : read.Collects manifest anchor items)
    (hmodels : (manifest.models.map (·.name)).Nodup)
    (hlink : manifest.linkName? anchor item = some read.link) :
    item.via = some read.entity ∧
      manifest.linkedModel? read.entity item.name anchor.name = some read.model := by
  obtain ⟨hvia, model, hmodel, hname⟩ := Manifest.linkName?_eq_some hlink
  have hsame : model = read.model :=
    List.inj_on_of_nodup_map hmodels (Manifest.linkedModel?_mem hmodel) h.model_mem hname
  exact ⟨hvia, hsame ▸ hmodel⟩

theorem Collects.element_mem (h : read.Collects manifest anchor items) (hitem : item ∈ items)
    (hlink : manifest.linkName? anchor item = some read.link) :
    item.element ∈ read.elements.tail := by
  rw [h.elements_eq, List.tail_cons]
  exact List.mem_map_of_mem (List.mem_filter.mpr ⟨hitem, by simpa using hlink⟩)

theorem head?_addBound (bound : String) {first : ElementRef} {rest : List ElementRef}
    (h : read.elements = first :: rest) :
    ∃ more, (read.addBound bound).elements = first :: (rest ++ more) := by
  unfold addBound
  split
  · exact ⟨[], by simp [h]⟩
  · exact ⟨[⟨bound, none⟩], by simp [h]⟩

/-- The bounds of the window go behind what is there. -/
theorem elements_widened {first : ElementRef} {rest : List ElementRef}
    (h : read.elements = first :: rest) :
    ∃ more, read.widened.elements = first :: (rest ++ more) := by
  unfold widened
  split
  · exact ⟨[], by simp [h]⟩
  · next window _ =>
      obtain ⟨more, hstart⟩ := head?_addBound window.start h
      obtain ⟨others, hstop⟩ := head?_addBound window.stop hstart
      exact ⟨more ++ others, by simp [hstop]⟩

end LinkedRead

end MetricSql
