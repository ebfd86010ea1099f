import MetricSql.Proofs.Plan.Joinable
import MetricSql.Proofs.Plan.Obstacle
import MetricSql.Proofs.Text.Nearest

/-!
# Suggestions

A name that is not found is reported with the nearest of the names that could have
been given instead.  The lookups and the lists of these names are walks of their
own over the manifest; that every name of a list is found by its lookup is what
makes a suggestion worth following.
-/

namespace MetricSql

/-! ## Names that are found -/

section Names

variable {manifest : Manifest} {model : Model} {name entity exclude : String}

theorem isSome_find?_of_mem_map {α : Type} {nameOf : α → String} {xs : List α}
    (h : name ∈ xs.map nameOf) : (xs.find? fun x => nameOf x == name).isSome := by
  rcases List.mem_map.mp h with ⟨x, hx, rfl⟩
  exact List.find?_isSome.mpr ⟨x, hx, by simp⟩

theorem Model.isSome_element? (h : name ∈ model.elementNames) : (model.element? name).isSome := by
  rcases Model.exists_element? h with ⟨element, helement⟩
  simp [helement]

theorem Manifest.isSome_modelOfMeasure? (h : name ∈ manifest.measureNames) :
    (manifest.modelOfMeasure? name).isSome := by
  rcases List.mem_flatMap.mp h with ⟨model, hmodel, hname⟩
  exact List.find?_isSome.mpr ⟨model, hmodel, isSome_find?_of_mem_map hname⟩

/-- The names that can be reached through an entity are those of the dimensions for which a model is
found. -/
theorem Manifest.mem_linkedNames_iff :
    name ∈ manifest.linkedNames entity exclude ↔
      ∃ dimension, name = qualified entity dimension ∧
        (manifest.linkedModel? entity dimension exclude).isSome := by
  simp only [linkedNames, identifiedBy, linkedModel?, List.mem_flatMap, List.mem_filter,
    List.mem_map, List.find?_isSome, Bool.and_eq_true]
  constructor
  · rintro ⟨model, ⟨hmodel, hother, hidentified⟩, dimension, hdimension, rfl⟩
    refine ⟨dimension.name, rfl, model, hmodel, ⟨hother, hidentified⟩, ?_⟩
    exact isSome_find?_of_mem_map (List.mem_map_of_mem hdimension)
  · rintro ⟨_, rfl, model, hmodel, ⟨hother, hidentified⟩, hdimension⟩
    rcases Option.isSome_iff_exists.mp hdimension with ⟨dimension, hfound⟩
    rcases Model.dimension?_mem hfound with ⟨hmem, rfl⟩
    exact ⟨model, ⟨hmodel, hother, hidentified⟩, dimension, hmem, rfl⟩

end Names

/-! ## Lookups -/

/-- Where a name is looked up: among the metrics, the measures for a metric, the entities of the
anchor, its group items, the items linked through one of its entities, and the elements of a model
that is read. -/
inductive Lookup where
  | metric
  | measure (metric : Metric)
  | link (anchor : Model)
  | item (anchor : Model)
  | linkedItem (anchor : Model) (entity : String)
  | element (model : Model)

namespace Lookup

def stage : Lookup → Stage
  | element _ => .read
  | _ => .request

def scope : Lookup → String
  | metric => "semantic manifest metrics"
  | measure used => "measures of metric '" ++ used.name ++ "'"
  | link anchor => "entities of semantic model '" ++ anchor.name ++ "'"
  | item anchor => "group-by items of semantic model '" ++ anchor.name ++ "'"
  | linkedItem _ entity => "semantic models linked through entity '" ++ entity ++ "'"
  | element model => "semantic model '" ++ model.name ++ "'"

/-- The linked names in which a bare name may occur. -/
def linkedNames (manifest : Manifest) : Lookup → List String
  | item anchor => anchor.entities.flatMap fun entity => manifest.linkedNames entity.name anchor.name
  | _ => []

/-- The candidates for a suggestion. -/
def names (manifest : Manifest) : Lookup → List String
  | metric => manifest.metricNames
  | measure _ => manifest.measureNames
  | link anchor => anchor.entities.map (·.name)
  | item anchor => anchor.entities.map (·.name) ++ anchor.dimensions.map (·.name) ++
      (item anchor).linkedNames manifest
  | linkedItem anchor entity => manifest.linkedNames entity anchor.name
  | element model => model.elementNames

end Lookup

/-- The item can be grouped by. -/
def Manifest.Accepts (manifest : Manifest) (anchor : Model) (item : GroupItem) : Prop :=
  (item.via = none ∧ manifest.resolveLocal anchor item = .ok ()) ∨
    ∃ entity model, item.via = some entity ∧ manifest.resolveLinked anchor entity item = .ok model

/-- The name is found.  For group items it is the name of a column, and there is an item without a
grain that makes such a column. -/
def Lookup.Finds (manifest : Manifest) (name : String) : Lookup → Prop
  | metric => (manifest.metric? name).isSome
  | measure _ => (manifest.modelOfMeasure? name).isSome
  | link anchor => (anchor.entity? name).isSome
  | item anchor => ∃ item : GroupItem, item.grain = none ∧ item.columnName = name ∧
      manifest.Accepts anchor item
  | linkedItem anchor entity => ∃ item : GroupItem, item.grain = none ∧ item.columnName = name ∧
      item.via = some entity ∧ manifest.Accepts anchor item
  | element model => (model.element? name).isSome

/-- The first linked form of the name, if there is one, and else the nearest of the candidates. -/
inductive Lookup.Suggests (manifest : Manifest) (lookup : Lookup) (name : String) :
    Option String → Prop
  | linkedForm {before after : List String} {front : String}
      (hlist : lookup.linkedNames manifest = before ++ qualified front name :: after)
      (hfirst : ∀ other, qualified other name ∉ before) :
      Suggests manifest lookup name (some (qualified front name))
  | nearest {suggestion : Option String}
      (hnone : ∀ front, qualified front name ∉ lookup.linkedNames manifest)
      (h : Text.IsNearest name (lookup.names manifest) suggestion) :
      Suggests manifest lookup name suggestion

/-- The measures of the request are those of the anchor. -/
def Manifest.AnchoredOn (manifest : Manifest) (request : Request) (anchor : Model) : Prop :=
  ∃ metrics measures, request.metrics.mapM manifest.resolveMetric = .ok metrics ∧
    manifest.resolveMeasures metrics = .ok (anchor, measures)

/-- The request needs a name that the lookup does not find. -/
inductive Manifest.Lacks (manifest : Manifest) (request : Request) : Lookup → String → Prop
  | metric {name : String} (hname : name ∈ request.metrics) (h : manifest.metric? name = none) :
      Lacks manifest request .metric name
  | measure {name input : String} {metric : Metric} (hname : name ∈ request.metrics)
      (hmetric : manifest.metric? name = some metric) (hinput : input ∈ metric.inputs)
      (h : manifest.modelOfMeasure? input = none) :
      Lacks manifest request (.measure metric) input
  | link {anchor : Model} {item : GroupItem} {entity : String}
      (hanchor : manifest.AnchoredOn request anchor) (hitem : item ∈ request.groupBy)
      (hvia : item.via = some entity) (h : anchor.entity? entity = none) :
      Lacks manifest request (.link anchor) entity
  | item {anchor : Model} {item : GroupItem} (hanchor : manifest.AnchoredOn request anchor)
      (hitem : item ∈ request.groupBy) (hvia : item.via = none)
      (h : manifest.resolveLocal anchor item ≠ .ok ()) :
      Lacks manifest request (.item anchor) item.name
  | linkedItem {anchor : Model} {item : GroupItem} {entity : String}
      (hanchor : manifest.AnchoredOn request anchor) (hitem : item ∈ request.groupBy)
      (hvia : item.via = some entity) (hentity : (anchor.entity? entity).isSome)
      (h : manifest.linkedModel? entity item.name anchor.name = none) :
      Lacks manifest request (.linkedItem anchor entity) (qualified entity item.name)
  | element {resolved : Resolved} {model : Model} {elements : List ElementRef} {ref : ElementRef}
      (hresolved : manifest.resolve request = .ok resolved)
      (hread : (model, elements) ∈ resolved.reads) (href : ref ∈ elements)
      (h : model.element? ref.name = none) : Lacks manifest request (.element model) ref.name

/-! ## Candidates are found -/

namespace Lookup

variable {manifest : Manifest} {lookup : Lookup} {anchor : Model} {name : String}

theorem accepts_local (h : name ∈ anchor.entities.map (·.name) ++ anchor.dimensions.map (·.name)) :
    manifest.Accepts anchor { name } := by
  refine .inl ⟨rfl, Manifest.resolveLocal_eq_ok.mpr ?_⟩
  rcases List.mem_append.mp h with hentity | hdimension
  · rcases Option.isSome_iff_exists.mp (isSome_find?_of_mem_map hentity) with ⟨entity, hfound⟩
    exact ⟨.entity entity, Model.element?_of_entity? hfound, rfl⟩
  · rcases Option.isSome_iff_exists.mp (isSome_find?_of_mem_map hdimension) with ⟨found, hfound⟩
    exact Model.element?_of_dimension? hfound

theorem accepts_linked {entity : String} (hentity : (anchor.entity? entity).isSome)
    (h : name ∈ manifest.linkedNames entity anchor.name) :
    ∃ item : GroupItem, item.grain = none ∧ item.columnName = name ∧ item.via = some entity ∧
      manifest.Accepts anchor item := by
  rcases Manifest.mem_linkedNames_iff.mp h with ⟨dimension, rfl, hmodel⟩
  rcases Option.isSome_iff_exists.mp hentity with ⟨found, hfound⟩
  rcases Option.isSome_iff_exists.mp hmodel with ⟨model, hmodel⟩
  refine ⟨{ name := dimension, via := some entity }, rfl, rfl, rfl, ?_⟩
  refine .inr ⟨entity, model, rfl, ?_⟩
  simp [Manifest.resolveLinked, hfound, hmodel]

theorem linkedNames_subset_names (manifest : Manifest) (lookup : Lookup) :
    lookup.linkedNames manifest ⊆ lookup.names manifest := by
  cases lookup with
  | item anchor => exact List.subset_append_right _ _
  | _ => exact List.nil_subset _

theorem finds_of_mem_names (hopen : ∀ anchor entity, lookup = .linkedItem anchor entity →
      (anchor.entity? entity).isSome)
    (h : name ∈ lookup.names manifest) : lookup.Finds manifest name := by
  cases lookup with
  | metric => exact isSome_find?_of_mem_map h
  | measure metric => exact Manifest.isSome_modelOfMeasure? h
  | link anchor => exact isSome_find?_of_mem_map h
  | item anchor =>
      rcases List.mem_append.mp h with hlocal | hlinked
      · exact ⟨{ name }, rfl, rfl, accepts_local hlocal⟩
      · rcases List.mem_flatMap.mp hlinked with ⟨entity, hentity, hname⟩
        rcases accepts_linked (isSome_find?_of_mem_map (List.mem_map_of_mem hentity)) hname with
          ⟨item, hgrain, hcolumn, -, haccepts⟩
        exact ⟨item, hgrain, hcolumn, haccepts⟩
  | linkedItem anchor entity => exact accepts_linked (hopen anchor entity rfl) h
  | element model => exact Model.isSome_element? h

theorem Suggests.mem_names {suggestion : String}
    (h : lookup.Suggests manifest name (some suggestion)) :
    suggestion ∈ lookup.names manifest := by
  cases h with
  | linkedForm hlist =>
      apply linkedNames_subset_names manifest lookup
      simp [hlist]
  | nearest hnone hnearest => exact hnearest.mem

theorem suggests_nearest? (hplain : lookup.linkedNames manifest = []) (name : String) :
    lookup.Suggests manifest name (Text.nearest? name (lookup.names manifest)) := by
  refine .nearest ?_ (Text.nearest?_isNearest _ _)
  simp [hplain]

theorem isSuffixOf_iff {name candidate : String} :
    ("__" ++ name).toList.isSuffixOf candidate.toList ↔
      ∃ front, candidate = qualified front name := by
  rw [List.isSuffixOf_iff_suffix]
  constructor
  · rintro ⟨front, hfront⟩
    refine ⟨String.ofList front, String.toList_injective ?_⟩
    rw [← hfront]
    simp [qualified, String.toList_append]
  · rintro ⟨front, rfl⟩
    refine ⟨front.toList, ?_⟩
    simp [qualified, String.toList_append]

theorem suggests_suggestLocal? (manifest : Manifest) (anchor : Model) (name : String) :
    (item anchor).Suggests manifest name (manifest.suggestLocal? anchor name) := by
  unfold Manifest.suggestLocal?
  simp only
  split
  next candidate hfound =>
    rcases List.find?_eq_some_iff_append.mp hfound with ⟨hform, before, after, hlist, hfirst⟩
    rcases isSuffixOf_iff.mp hform with ⟨front, rfl⟩
    refine .linkedForm hlist ?_
    intro other hother
    have hnot := hfirst _ hother
    rw [isSuffixOf_iff.mpr ⟨other, rfl⟩] at hnot
    cases hnot
  next hnone =>
    refine .nearest ?_ (Text.nearest?_isNearest _ _)
    intro front hfront
    exact List.find?_eq_none.mp hnone _ hfront (isSuffixOf_iff.mpr ⟨front, rfl⟩)

end Lookup

/-! ## What is reported -/

/-- A name was not found. -/
def Failure.isUnresolved : Failure → Bool
  | unresolvedElement .. => true
  | _ => false

/-- The failure names the lookup and the name that it lacks, and suggests another one. -/
def Manifest.Reports (manifest : Manifest) (request : Request) (failure : Failure) : Prop :=
  ∃ lookup name suggestion, manifest.Lacks request lookup name ∧
    lookup.Suggests manifest name suggestion ∧
    failure = .unresolvedElement lookup.stage lookup.scope name suggestion

section Reports

variable {manifest : Manifest} {request : Request} {failure : Failure}

theorem Manifest.resolveMetrics_reports
    (h : request.metrics.mapM manifest.resolveMetric = .error failure) :
    manifest.Reports request failure := by
  rcases mapM_eq_error h with ⟨name, hname, hfails⟩
  unfold Manifest.resolveMetric at hfails
  split at hfails
  next => cases hfails
  next hnone =>
    cases hfails
    exact ⟨.metric, name, _, .metric hname hnone, Lookup.suggests_nearest? rfl name, rfl⟩

theorem Manifest.resolveMeasures_reports {metrics : List Metric}
    (hmetrics : request.metrics.mapM manifest.resolveMetric = .ok metrics)
    (h : manifest.resolveMeasures metrics = .error failure)
    (hunresolved : failure.isUnresolved = true) : manifest.Reports request failure := by
  unfold Manifest.resolveMeasures at h
  rcases bind_eq_error.mp h with hfold | ⟨set, -, hnone⟩
  · rcases exists_eq_error_of_foldlM hfold with ⟨metric, hmem, set, hmetric⟩
    rcases exists_eq_error_of_foldlM hmetric with ⟨input, hinput, set', hfails⟩
    rcases forall₂_exists_left (mapM_eq_ok.mp hmetrics) hmem with ⟨name, hname, hfound⟩
    rcases MeasureSet.addInput_eq_error hfails with ⟨hnone, rfl⟩ | ⟨_, _, -, -, -, rfl⟩
    · refine ⟨.measure metric, input, _, ?_, Lookup.suggests_nearest? rfl input, rfl⟩
      exact .measure hname (Manifest.resolveMetric_eq_ok.mp hfound) hinput hnone
    · cases hunresolved
  · split at hnone
    next => cases hnone
    next =>
      cases hnone
      cases hunresolved

theorem Manifest.resolveGroups_reports {anchor : Model}
    (hanchor : manifest.AnchoredOn request anchor)
    (h : manifest.resolveGroups anchor request.groupBy = .error failure) :
    manifest.Reports request failure := by
  rcases exists_eq_error_of_foldlM h with ⟨item, hmem, grouping, hitem⟩
  rcases Grouping.addItem_eq_error hitem with
    ⟨hvia, hlocal, rfl⟩ | ⟨entity, hvia, ⟨hnone, rfl⟩ | ⟨hentity, hnone, rfl⟩⟩
  · exact ⟨.item anchor, item.name, _, .item hanchor hmem hvia hlocal,
      Lookup.suggests_suggestLocal? manifest anchor item.name, rfl⟩
  · exact ⟨.link anchor, entity, _, .link hanchor hmem hvia hnone,
      Lookup.suggests_nearest? rfl entity, rfl⟩
  · exact ⟨.linkedItem anchor entity, _, _, .linkedItem hanchor hmem hvia hentity hnone,
      Lookup.suggests_nearest? rfl _, rfl⟩

theorem Manifest.resolve_reports (h : manifest.resolve request = .error failure)
    (hunresolved : failure.isUnresolved = true) : manifest.Reports request failure := by
  unfold Manifest.resolve at h
  split at h
  next =>
    cases h
    cases hunresolved
  next =>
    simp only [bind_eq_error] at h
    rcases h with hmetrics | ⟨metrics, hmetrics, hmeasures | ⟨⟨anchor, measures⟩, hmeasures,
      hgroups | ⟨grouping, -, hwindows | ⟨_, -, hkeys | ⟨_, -, ⟨⟩⟩⟩⟩⟩⟩
    · exact Manifest.resolveMetrics_reports hmetrics
    · exact Manifest.resolveMeasures_reports hmetrics hmeasures hunresolved
    · exact Manifest.resolveGroups_reports ⟨metrics, measures, hmetrics, hmeasures⟩ hgroups
    · rcases LinkedRead.addWindows_eq_error hwindows with ⟨_, -, -, -, rfl⟩
      cases hunresolved
    · rcases GroupKeys.ofNames_eq_error hkeys with ⟨⟨_, rfl⟩, -⟩
      cases hunresolved

/-! ## Stages -/

/-- A model that is read may lack an element. -/
theorem Model.read_unresolved {model : Model} {elements : List ElementRef}
    {supply supply' : AliasSupply}
    (h : model.read elements supply = (.error failure, supply'))
    (hunresolved : failure.isUnresolved = true) :
    ∃ ref ∈ elements, model.element? ref.name = none ∧ failure = model.unresolved ref.name := by
  unfold read at h
  split at h
  next =>
    cases h
    cases hunresolved
  next =>
    simp only [AliasSupply.table, AliasSupply.subquery] at h
    split at h
    next found hbind =>
      cases h
      simp only [bindAll, bind_eq_error] at hbind
      rcases hbind with hmap | ⟨columns, -, hunique | ⟨⟨⟩, -, ⟨⟩⟩⟩
      · rcases mapM_eq_error hmap with ⟨ref, href, hfails⟩
        unfold bindElement at hfails
        split at hfails
        next hnone =>
          cases hfails
          exact ⟨ref, href, hnone, rfl⟩
        next element _ =>
          simp only [bind_eq_error] at hfails
          rcases hfails with hcheck | ⟨⟨⟩, -, ⟨⟩⟩
          rcases checkGrain?_eq_error hcheck with ⟨_, _, rfl⟩
          cases hunresolved
      · rcases ensureUnique_eq_error hunique with ⟨⟨_, rfl⟩, -⟩
        cases hunresolved
    next => cases h

namespace Plan

variable {input : Plan} {supply supply' : AliasSupply}

theorem joinTargets_isUnresolved {targets : List JoinTarget} (hinput : input.columnNames.Nodup)
    (htargets : ∀ target ∈ targets, target.node.columnNames.Nodup)
    (h : input.joinTargets targets supply = (.error failure, supply')) :
    failure.isUnresolved = false := by
  rcases joinTargets_refuses hinput htargets h with ⟨_, _, -, hrefuses, -⟩
  cases hrefuses <;> rfl

theorem keyColumn_isUnresolved {key : String} (h : input.keyColumn key = .error failure) :
    failure.isUnresolved = false := by
  have hmissing : (input.missingKey key).isUnresolved = false := by
    unfold missingKey
    split
    next =>
      simp only
      split <;> rfl
    next => rfl
  unfold keyColumn at h
  split at h
  next =>
    split at h
    next => cases h
    next =>
      cases h
      exact hmissing
  next =>
    cases h
    exact hmissing

theorem measureColumn_isUnresolved {term : MeasureTerm}
    (h : input.measureColumn term = .error failure) : failure.isUnresolved = false := by
  unfold measureColumn at h
  split at h
  next =>
    simp only [bind_eq_error] at h
    rcases h with hexpr | ⟨_, -, ⟨⟩⟩
    rcases MeasureTerm.expr_eq_error hexpr with ⟨_, _, _, -, -, rfl⟩
    rfl
  next =>
    cases h
    rfl

theorem aggregateBy_isUnresolved {keys : GroupKeys} {measures : List MeasureTerm}
    (h : input.aggregateBy keys measures supply = (.error failure, supply')) :
    failure.isUnresolved = false := by
  unfold aggregateBy at h
  split at h
  next found hcolumns =>
    cases h
    unfold aggregateColumns at hcolumns
    split at hcolumns
    next =>
      cases hcolumns
      rfl
    next =>
      simp only [bind_eq_error] at hcolumns
      rcases hcolumns with hkeys | ⟨_, -, hmeasures | ⟨_, -, hunique | ⟨⟨⟩, -, ⟨⟩⟩⟩⟩
      · rcases mapM_eq_error hkeys with ⟨_, -, hkey⟩
        exact keyColumn_isUnresolved hkey
      · rcases mapM_eq_error hmeasures with ⟨_, -, hmeasure⟩
        exact measureColumn_isUnresolved hmeasure
      · rcases ensureUnique_eq_error hunique with ⟨⟨_, rfl⟩, -⟩
        rfl
  next => cases h

theorem compile_isUnresolved {metric : String} {formula : Formula}
    (h : formula.compile input metric = .error failure) : failure.isUnresolved = false := by
  induction formula with
  | input name =>
      rw [Formula.compile] at h
      split at h
      next => cases h
      next =>
        cases h
        rfl
  | literal value =>
      rw [Formula.compile] at h
      split at h
      next => cases h
      next =>
        cases h
        rfl
  | neg operand ih =>
      simp only [Formula.compile, bind_eq_error] at h
      rcases h with hoperand | ⟨_, -, ⟨⟩⟩
      exact ih hoperand
  | binary operator left right ihleft ihright =>
      simp only [Formula.compile, bind_eq_error] at h
      rcases h with hleft | ⟨_, -, hright | ⟨_, -, ⟨⟩⟩⟩
      · exact ihleft hleft
      · exact ihright hright
  | ratio numerator denominator ihnumerator ihdenominator =>
      simp only [Formula.compile, bind_eq_error] at h
      rcases h with hnumerator | ⟨_, -, hdenominator | ⟨_, -, ⟨⟩⟩⟩
      · exact ihnumerator hnumerator
      · exact ihdenominator hdenominator

theorem computeMetrics_isUnresolved {terms : List MetricTerm}
    (h : input.computeMetrics terms supply = (.error failure, supply')) :
    failure.isUnresolved = false := by
  unfold computeMetrics at h
  split at h
  next found hparts =>
    cases h
    unfold metricParts at hparts
    split at hparts
    next =>
      cases hparts
      rfl
    next =>
      split at hparts
      next =>
        cases hparts
        rfl
      next =>
        simp only [bind_eq_error] at hparts
        rcases hparts with hterms | ⟨_, -, hunique | ⟨⟨⟩, -, ⟨⟩⟩⟩
        · rcases mapM_eq_error hterms with ⟨term, -, hterm⟩
          simp only [metricColumn, bind_eq_error] at hterm
          rcases hterm with hcompile | ⟨_, -, ⟨⟩⟩
          exact compile_isUnresolved hcompile
        · rcases ensureUnique_eq_error hunique with ⟨⟨_, rfl⟩, -⟩
          rfl
  next => cases h

end Plan

theorem LinkedRead.IsTarget.nodup {time : Option String} {read : LinkedRead} {target : JoinTarget}
    (h : read.IsTarget time target) : target.node.columnNames.Nodup := by
  rcases h with ⟨node, before, after, hread, rfl⟩
  exact (Model.read_columnNames hread).2

/-- Past the reads, nothing is looked up in a model. -/
theorem Resolved.plan_unresolved {resolved : Resolved} (h : resolved.plan = .error failure)
    (hunresolved : failure.isUnresolved = true) :
    ∃ model elements, (model, elements) ∈ resolved.reads ∧
      ∃ supply supply', model.read elements supply = (.error failure, supply') := by
  unfold Resolved.plan at h
  split at h
  next found supply hread =>
    cases h
    exact ⟨_, _, List.mem_cons_self, _, _, hread⟩
  next primary supply hread =>
    simp only [bind_eq_error] at h
    rcases h with hlinked | ⟨⟨targets, middle⟩, htargets, h⟩
    · rcases LinkedRead.readAll_eq_error hlinked with ⟨read, hmem, before, after, hfails⟩
      refine ⟨_, _, List.mem_cons_of_mem _ ?_, before, after, hfails⟩
      exact List.mem_map_of_mem hmem
    · refine absurd hunresolved (Bool.eq_false_iff.mp ?_)
      have htargetNodup : ∀ target ∈ targets, target.node.columnNames.Nodup := by
        intro target htarget
        rcases forall₂_exists_left (LinkedRead.readAll_eq_ok htargets).1 htarget with
          ⟨read, -, hread⟩
        exact hread.nodup
      split at h
      next hjoin =>
        cases h
        exact Plan.joinTargets_isUnresolved (Model.read_columnNames hread).2 htargetNodup hjoin
      next joined _ _ =>
        split at h
        next haggregate =>
          cases h
          exact Plan.aggregateBy_isUnresolved haggregate
        next => exact Plan.computeMetrics_isUnresolved (Prod.ext h rfl)

theorem Manifest.plan_reports (h : manifest.plan request = .error failure)
    (hunresolved : failure.isUnresolved = true) : manifest.Reports request failure := by
  rcases bind_eq_error.mp h with hresolve | ⟨resolved, hresolve, hplan⟩
  · exact Manifest.resolve_reports hresolve hunresolved
  · rcases Resolved.plan_unresolved hplan hunresolved with
      ⟨model, elements, hmem, supply, supply', hread⟩
    rcases Model.read_unresolved hread hunresolved with ⟨ref, href, hnone, rfl⟩
    exact ⟨.element model, ref.name, _, .element hresolve hmem href hnone,
      Lookup.suggests_nearest? rfl ref.name, rfl⟩

theorem Manifest.Lacks.isSome_entity? {anchor : Model} {entity name : String}
    (h : manifest.Lacks request (.linkedItem anchor entity) name) :
    (anchor.entity? entity).isSome := by
  cases h with
  | linkedItem hanchor hitem hvia hentity hnone => exact hentity

end Reports

/-- When a name of a request, or of an element to read, is not found, one lookup has failed, and it
is the one that is reported.  What it suggests is the first linked form of a bare name, and else the
first of the names that take the fewest edits, with at most three of them; there is no suggestion
only if all names take more.  A suggestion is found by that same lookup. -/
theorem unresolved_suggestion (stage : Stage) (scope name : String) (suggestion : Option String) :
    (∀ manifest request,
        Manifest.plan manifest request =
            .error (.unresolvedElement stage scope name suggestion) →
          ∃ lookup, manifest.Lacks request lookup name ∧ lookup.stage = stage ∧
            lookup.scope = scope ∧ lookup.Suggests manifest name suggestion ∧
            ∀ other, suggestion = some other → lookup.Finds manifest other) ∧
      ∀ model elements supply supply',
        Model.read model elements supply =
            (.error (.unresolvedElement stage scope name suggestion), supply') →
          (∃ ref ∈ elements, ref.name = name ∧ model.element? name = none) ∧
            stage = .read ∧ scope = (Lookup.element model).scope ∧
            Text.IsNearest name model.elementNames suggestion ∧
            ∀ other, suggestion = some other → (model.element? other).isSome := by
  constructor
  · intro manifest request h
    rcases Manifest.plan_reports h rfl with ⟨lookup, _, _, hlacks, hsuggests, heq⟩
    cases heq
    refine ⟨lookup, hlacks, rfl, rfl, hsuggests, ?_⟩
    rintro other rfl
    refine Lookup.finds_of_mem_names ?_ hsuggests.mem_names
    rintro anchor entity rfl
    exact hlacks.isSome_entity?
  · intro model elements supply supply' h
    rcases Model.read_unresolved h rfl with ⟨ref, href, hnone, heq⟩
    cases heq
    refine ⟨⟨ref, href, rfl, hnone⟩, rfl, rfl, Text.nearest?_isNearest _ _, ?_⟩
    intro other hother
    have hnearest := Text.nearest?_isNearest ref.name model.elementNames
    rw [hother] at hnearest
    exact Model.isSome_element? hnearest.mem

namespace Sample

/-- A misspelt item that is reached through the listing. -/
def contryRequest : Request where
  metrics := ["half"]
  groupBy := [{ name := "Contry", via := some "listing" }]

theorem contry_suggestion :
    manifest.plan contryRequest =
        .error (.unresolvedElement .request "semantic models linked through entity 'listing'"
          "listing__Contry" (some "listing__country")) ∧
      ∃ lookup, manifest.Lacks contryRequest lookup "listing__Contry" ∧
        lookup.Suggests manifest "listing__Contry" (some "listing__country") ∧
        lookup.Finds manifest "listing__country" := by
  have hnearest : Text.nearest? "listing__Contry"
      ["listing__country", "listing__since", "listing__until"] = some "listing__country" := by
    decide +kernel
  have hplan : manifest.plan contryRequest =
      .error (.unresolvedElement .request "semantic models linked through entity 'listing'"
        "listing__Contry" (some "listing__country")) := by
    rw [← hnearest]
    rfl
  rcases (unresolved_suggestion _ _ _ _).1 _ _ hplan with
    ⟨lookup, hlacks, -, -, hsuggests, hfinds⟩
  exact ⟨hplan, lookup, hlacks, hsuggests, hfinds _ rfl⟩

end Sample

end MetricSql
