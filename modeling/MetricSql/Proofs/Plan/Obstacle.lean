import MetricSql.Proofs.Plan.Columns
import MetricSql.Proofs.Plan.Refusal

/-!
# Plans that cannot be built

Once the names of a request are resolved, every later lookup finds what it looks
for.  What is left to go wrong are names that are taken, grains and types that do
not fit, and numbers out of range.
-/

namespace MetricSql

/-! ## Reading -/

namespace Model

/-- A column of the name is read, and holds an element of the type. -/
def ReadsType (model : Model) (elements : List ElementRef) (name : String)
    (dataType : DataType) : Prop :=
  ∃ ref ∈ elements, ref.columnName = name ∧
    ∃ element, model.element? ref.name = some element ∧ element.dataType? = some dataType

theorem read_readsType {model : Model} {elements : List ElementRef}
    {supply supply' : AliasSupply} {node : Plan}
    (h : model.read elements supply = (.ok node, supply')) {name : String} {column : Column}
    (hcolumn : node.column? name = some column) {dataType : DataType}
    (htype : column.dataType = some dataType) :
    model.ReadsType elements name dataType := by
  obtain ⟨hmem, rfl⟩ := Plan.column?_mem hcolumn
  obtain ⟨-, columns, hbind, rfl, -⟩ := read_eq_ok.mp h
  obtain ⟨ref, href, hbound⟩ := forall₂_exists_left (bindAll_eq_ok.mp hbind).1 hmem
  have hname := bindElement_name hbound
  obtain ⟨element, helement, hcheck, rfl⟩ := bindElement_eq_ok.mp hbound
  refine ⟨ref, href, hname.symm, element, helement, ?_⟩
  rw [← (elementColumn_role _ hcheck).2]
  exact htype

theorem read_failure {model : Model} {elements : List ElementRef}
    {supply supply' : AliasSupply} {failure : Failure} (hne : elements ≠ [])
    (hknown : ∀ ref ∈ elements, ∃ element, model.element? ref.name = some element)
    (h : model.read elements supply = (.error failure, supply')) :
    (∃ ref ∈ elements, ∃ element, model.element? ref.name = some element ∧
        checkGrain? element ref = .error failure) ∨
      (∃ name, failure = .duplicateColumn .read name) ∧
        ¬ (elements.map ElementRef.columnName).Nodup := by
  have hbind : model.bindAll (AliasSupply.tableAlias model.name supply.tables) elements =
      .error failure := by
    unfold read at h
    split at h
    next hempty => exact absurd (List.isEmpty_iff.mp hempty) hne
    next =>
      simp only [AliasSupply.table, AliasSupply.subquery] at h
      split at h
      next found hfound =>
        cases h
        exact hfound
      next => cases h
  unfold bindAll at hbind
  rcases bind_eq_error.mp hbind with hmap | ⟨columns, hcolumns, hunique⟩
  · obtain ⟨ref, href, hfail⟩ := mapM_eq_error hmap
    obtain ⟨element, helement⟩ := hknown ref href
    refine .inl ⟨ref, href, element, helement, ?_⟩
    unfold bindElement at hfail
    rw [helement] at hfail
    simp only [bind_eq_error] at hfail
    rcases hfail with hcheck | ⟨⟨⟩, -, ⟨⟩⟩
    exact hcheck
  · rcases bind_eq_error.mp hunique with hunique | ⟨⟨⟩, -, ⟨⟩⟩
    obtain ⟨hname, hnot⟩ := ensureUnique_eq_error hunique
    have hnames : columns.map (·.name) = elements.map ElementRef.columnName := by
      rw [← List.forall₂_eq_eq_eq, List.forall₂_map_left_iff, List.forall₂_map_right_iff]
      exact (mapM_eq_ok.mp hcolumns).flip.imp fun column ref hbind => bindElement_name hbind
    exact .inr ⟨hname, hnames ▸ hnot⟩

end Model

theorem LinkedRead.readAll_eq_error {time : Option String} {reads : List LinkedRead}
    {supply : AliasSupply} {failure : Failure}
    (h : readAll time reads supply = .error failure) :
    ∃ read ∈ reads, ∃ before after,
      read.model.read read.elements before = (.error failure, after) := by
  induction reads generalizing supply with
  | nil => cases h
  | cons read rest ih =>
      rw [readAll] at h
      split at h
      next after hread =>
        cases h
        exact ⟨read, List.mem_cons_self, _, _, hread⟩
      next node after hread =>
        simp only [bind_eq_error] at h
        rcases h with hrest | ⟨_, -, ⟨⟩⟩
        obtain ⟨found, hfound, hcause⟩ := ih hrest
        exact ⟨found, List.mem_cons_of_mem _ hfound, hcause⟩

/-! ## Joining -/

theorem JoinTarget.contribute_eq_error {target : JoinTarget} {left : List LeftColumn}
    {columns : List Column} {failure : Failure}
    (h : target.contribute left columns = .error failure) :
    (∃ name, failure = .duplicateColumn .join name) ∧
      ¬ ((left ++ columns.map (LeftColumn.ofColumn target.node.aliasName target.rename)).map
        (·.name)).Nodup := by
  induction columns generalizing left with
  | nil => cases h
  | cons column rest ih =>
      simp only [contribute] at h
      split at h
      next found hfound =>
        cases h
        refine ⟨⟨_, rfl⟩, fun hnodup => ?_⟩
        have hmem := List.mem_of_find?_eq_some hfound
        have hname : found.name = target.rename column.name := by
          simpa using List.find?_some hfound
        rw [List.map_append, List.nodup_append] at hnodup
        refine hnodup.2.2 _ (List.mem_map_of_mem hmem) found.name ?_ rfl
        simp [LeftColumn.ofColumn, hname]
      next =>
        simpa using ih h

namespace LinkedRead

variable {time : Option String} {read : LinkedRead} {target : JoinTarget} {primary : Plan}
  {extra : List LeftColumn} {failure : Failure}

/-- The columns that the join of a linked model looks up are there. -/
structure Matches (time : Option String) (primary : Plan) (read : LinkedRead) : Prop where
  entity_left : read.entity ∈ primary.columnNames
  time_left : ∀ name, time = some name → name ∈ primary.columnNames
  entity_right : read.entity ∈ read.elements.map ElementRef.columnName
  window_right : ∀ window, read.model.window = some window →
    window.start ∈ read.elements.map ElementRef.columnName ∧
      window.stop ∈ read.elements.map ElementRef.columnName

/-- The entity has two types. -/
def Differs (primary : Plan) (read : LinkedRead) (failure : Failure) : Prop :=
  ∃ column left right, primary.column? read.entity = some column ∧
    column.dataType = some left ∧ read.model.ReadsType read.elements read.entity right ∧
    left ≠ right ∧ failure = .joinKeyTypes read.entity left right

theorem attach_eq_error (htarget : IsTarget time read target)
    (hmatches : read.Matches time primary)
    (h : target.attach primary.aliasName (primary.leftColumns ++ extra) = .error failure) :
    read.Differs primary failure ∨
      (∃ name, failure = .duplicateColumn .join name) ∧
        ¬ ((primary.leftColumns ++ extra ++ target.gains).map (·.name)).Nodup := by
  obtain ⟨node, before, after, hnode, rfl⟩ := htarget
  have hright : ∀ name ∈ read.elements.map ElementRef.columnName,
      ∃ column, node.column? name = some column := by
    intro name hname
    apply Plan.exists_column?
    rw [(Model.read_columnNames hnode).1]
    exact hname
  obtain ⟨left, hleft, hfound⟩ := LeftColumn.find?_leftColumns extra hmatches.entity_left
  obtain ⟨right, hcolumn⟩ := hright _ hmatches.entity_right
  unfold JoinTarget.attach at h
  simp only [target, List.isEmpty_cons, Bool.false_eq_true, if_false, bind_eq_error] at h
  rcases h with hkeys | ⟨keys, -, hwindow | ⟨window, -, hcontribute | ⟨_, -, ⟨⟩⟩⟩⟩
  · obtain ⟨key, hkey, hmatch⟩ := mapM_eq_error hkeys
    rw [List.mem_singleton.mp hkey] at hmatch
    unfold JoinTarget.matchKey at hmatch
    simp only [hfound, hcolumn] at hmatch
    split at hmatch
    next leftType rightType hleftType hrightType =>
      split at hmatch
      next => cases hmatch
      next hne =>
        cases hmatch
        exact .inl ⟨left, leftType, rightType, hleft, hleftType,
          Model.read_readsType hnode hcolumn hrightType, hne, rfl⟩
    next => cases hmatch
  · exfalso
    unfold JoinTarget.matchWindow at hwindow
    split at hwindow
    next => cases hwindow
    next window hsome =>
      obtain ⟨hmodel, htime⟩ := target_window_eq_some.mp hsome
      obtain ⟨column, -, hfoundTime⟩ :=
        LeftColumn.find?_leftColumns extra (hmatches.time_left _ htime)
      obtain ⟨hstart, hstop⟩ := hmatches.window_right _ hmodel
      rw [hfoundTime] at hwindow
      simp only [bind_eq_error] at hwindow
      have hpresent : ∀ name ∈ read.elements.map ElementRef.columnName,
          (read.target time node).requireColumn name = .ok () :=
        fun name hname => JoinTarget.requireColumn_eq_ok.mpr (hright name hname)
      rcases hwindow with hfail | ⟨⟨⟩, -, hfail | ⟨⟨⟩, -, ⟨⟩⟩⟩
      · cases (hpresent _ hstart).symm.trans hfail
      · cases (hpresent _ hstop).symm.trans hfail
  · exact .inr (JoinTarget.contribute_eq_error hcontribute)

theorem attachAll_eq_error {reads : List LinkedRead} {targets : List JoinTarget}
    (htargets : List.Forall₂ (IsTarget time) reads targets)
    (hmatches : ∀ read ∈ reads, read.Matches time primary)
    (h : JoinTarget.attachAll primary.aliasName (primary.leftColumns ++ extra) targets =
      .error failure) :
    (∃ read ∈ reads, read.Differs primary failure) ∨
      (∃ name, failure = .duplicateColumn .join name) ∧
        ¬ ((primary.leftColumns ++ extra ++ targets.flatMap JoinTarget.gains).map
          (·.name)).Nodup := by
  induction htargets generalizing extra with
  | nil => cases h
  | @cons read target reads targets htarget _ ih =>
      simp only [JoinTarget.attachAll, bind_eq_error] at h
      rcases h with hattach | ⟨⟨left, joined⟩, hattach, hrest | ⟨_, -, ⟨⟩⟩⟩
      · rcases attach_eq_error htarget (hmatches read List.mem_cons_self) hattach with
          hdiffers | ⟨hname, hnot⟩
        · exact .inl ⟨read, List.mem_cons_self, hdiffers⟩
        · refine .inr ⟨hname, fun hnodup => hnot ?_⟩
          rw [List.flatMap_cons, ← List.append_assoc, List.map_append] at hnodup
          exact hnodup.of_append_left
      · obtain ⟨-, keys, window, -, -, rfl, -⟩ := JoinTarget.attach_eq_ok hattach
        rw [List.append_assoc] at hrest
        rcases ih (fun other hother => hmatches other (List.mem_cons_of_mem _ hother)) hrest with
          ⟨found, hfound, hdiffers⟩ | ⟨hname, hnot⟩
        · exact .inl ⟨found, List.mem_cons_of_mem _ hfound, hdiffers⟩
        · refine .inr ⟨hname, ?_⟩
          rw [List.flatMap_cons, ← List.append_assoc]
          rwa [← List.append_assoc] at hnot

end LinkedRead

theorem Plan.joinTargets_failure {time : Option String} {reads : List LinkedRead}
    {primary : Plan} {targets : List JoinTarget} {supply supply' : AliasSupply}
    {failure : Failure} (htargets : List.Forall₂ (LinkedRead.IsTarget time) reads targets)
    (hmatches : ∀ read ∈ reads, read.Matches time primary)
    (h : primary.joinTargets targets supply = (.error failure, supply')) :
    (∃ read ∈ reads, read.Differs primary failure) ∨
      (∃ name, failure = .duplicateColumn .join name) ∧
        ¬ (primary.columnNames ++ (targets.flatMap JoinTarget.gains).map (·.name)).Nodup := by
  have hnames : primary.columnNames ++ (targets.flatMap JoinTarget.gains).map (·.name) =
      (primary.leftColumns ++ targets.flatMap JoinTarget.gains).map (·.name) := by
    simp [columnNames, leftColumns, LeftColumn.ofColumn, Function.comp_def]
  have hparts : primary.joinParts targets = .error failure := by
    unfold joinTargets at h
    split at h
    next => cases h
    next =>
      split at h
      next found hfound =>
        cases h
        exact hfound
      next => cases h
  simp only [joinParts, bind_eq_error] at hparts
  rw [hnames]
  rcases hparts with hattach | ⟨⟨left, joined⟩, hattach, hunique | ⟨⟨⟩, -, ⟨⟩⟩⟩
  · have hcause := LinkedRead.attachAll_eq_error htargets hmatches
      ((List.append_nil primary.leftColumns).symm ▸ hattach)
    rwa [List.append_nil] at hcause
  · obtain ⟨hname, hnot⟩ := ensureUnique_eq_error hunique
    rw [JoinTarget.attachAll_left hattach, List.map_map] at hnot
    exact .inr ⟨hname, hnot⟩

/-! ## Aggregating -/

theorem MeasureTerm.expr_eq_error {term : MeasureTerm} {column : Expr} {failure : Failure}
    (h : term.expr column = .error failure) :
    ∃ fraction discrete approximate,
      term.aggregation = .percentile fraction discrete approximate ∧
        ¬ (0.0 ≤ fraction ∧ fraction ≤ 1.0) ∧
        failure = .invalidPercentile term.name fraction := by
  unfold MeasureTerm.expr at h
  split at h
  case h_8 fraction discrete approximate heq =>
    split at h
    next => cases h
    next hrange =>
      cases h
      exact ⟨fraction, discrete, approximate, heq, hrange, rfl⟩
  all_goals cases h

namespace Plan

variable {input : Plan} {keys : GroupKeys} {measures : List MeasureTerm}
  {supply supply' : AliasSupply} {failure : Failure}

theorem keyColumn_of_shows {key : String} {element : Element} (h : input.Shows key element)
    (hrole : element.role.isGroupable) : ∃ column, input.keyColumn key = .ok column := by
  obtain ⟨column, hcolumn, hsame, -⟩ := h
  refine ⟨column.through input.aliasName, ?_⟩
  unfold keyColumn
  simp only [hcolumn, hsame, hrole, if_true]

theorem measureColumn_eq_error {term : MeasureTerm} {element : Element}
    (hshows : input.Shows term.name element) (hrole : element.role = .measure)
    (h : input.measureColumn term = .error failure) :
    term.expr (.of input.aliasName term.name) = .error failure := by
  obtain ⟨column, hcolumn, hsame, -⟩ := hshows
  unfold measureColumn at h
  simp only [hcolumn, Option.filter_some, hsame, hrole, decide_true, if_true, bind_eq_error] at h
  rcases h with hexpr | ⟨_, -, ⟨⟩⟩
  exact hexpr

theorem aggregateBy_failure
    (hkeys : ∀ key ∈ keys.names, ∃ element, input.Shows key element ∧
      element.role.isGroupable)
    (hmeasures : ∀ term ∈ measures, ∃ element, input.Shows term.name element ∧
      element.role = .measure)
    (hne : measures ≠ [])
    (h : input.aggregateBy keys measures supply = (.error failure, supply')) :
    (∃ term ∈ measures, ∃ column, term.expr column = .error failure) ∨
      (∃ name, failure = .duplicateColumn .aggregate name) ∧
        ¬ (keys.names ++ measures.map (·.name)).Nodup := by
  have hcolumns : input.aggregateColumns keys measures = .error failure := by
    unfold aggregateBy at h
    split at h
    next found hfound =>
      cases h
      exact hfound
    next => cases h
  unfold aggregateColumns at hcolumns
  split at hcolumns
  next hempty =>
    rw [Bool.and_eq_true, List.isEmpty_iff, List.isEmpty_iff] at hempty
    exact absurd hempty.2 hne
  next =>
    simp only [bind_eq_error] at hcolumns
    rcases hcolumns with hkey | ⟨keyColumns, hkeyColumns, hmeasure |
      ⟨measureColumns, hmeasureColumns, hunique | ⟨⟨⟩, -, ⟨⟩⟩⟩⟩
    · exfalso
      obtain ⟨key, hkey, hfail⟩ := mapM_eq_error hkey
      obtain ⟨element, hshows, hrole⟩ := hkeys key hkey
      obtain ⟨column, hok⟩ := keyColumn_of_shows hshows hrole
      cases hok.symm.trans hfail
    · obtain ⟨term, hterm, hfail⟩ := mapM_eq_error hmeasure
      obtain ⟨element, hshows, hrole⟩ := hmeasures term hterm
      exact .inl ⟨term, hterm, _, measureColumn_eq_error hshows hrole hfail⟩
    · obtain ⟨hname, hnot⟩ := ensureUnique_eq_error hunique
      have hkeyNames := map_name_of_forall₂ id keyColumn_name (mapM_eq_ok.mp hkeyColumns)
      have hmeasureNames := map_name_of_forall₂ MeasureTerm.name measureColumn_name
        (mapM_eq_ok.mp hmeasureColumns)
      rw [List.map_append, hkeyNames, hmeasureNames, List.map_id] at hnot
      exact .inr ⟨hname, hnot⟩

/-- An aggregate is there for every measure. -/
theorem aggregateBy_measure {node : Plan} {term : MeasureTerm}
    (h : input.aggregateBy keys measures supply = (.ok node, supply'))
    (hterm : term ∈ measures) :
    ∃ column, node.column? term.name = some column ∧ column.role = .measure := by
  obtain ⟨-, hnodup⟩ := aggregateBy_columnNames h
  obtain ⟨columns, hcolumns, rfl, -⟩ := aggregateBy_eq_ok h
  obtain ⟨-, keyColumns, measureColumns, -, hmeasures, rfl, -⟩ :=
    aggregateColumns_eq_ok hcolumns
  obtain ⟨column, hcolumn, hok⟩ := forall₂_exists_left hmeasures.flip hterm
  obtain ⟨source, expr, -, -, -, rfl⟩ := measureColumn_eq_ok hok
  exact ⟨_, column?_of_mem hnodup (List.mem_append_right _ hcolumn), rfl⟩

end Plan

/-! ## Computing metrics -/

theorem Formula.compile_eq_error {input : Plan} {metric : String} {formula : Formula}
    {failure : Failure}
    (hinputs : ∀ name ∈ formula.leaves, ∃ column, input.column? name = some column ∧
      column.role = .measure)
    (h : formula.compile input metric = .error failure) :
    failure = .nonFiniteLiteral metric ∧
      ∃ value ∈ formula.literals, Decimal.isFinite value = false := by
  induction formula with
  | input name =>
      obtain ⟨column, hcolumn, hrole⟩ := hinputs name (by simp [leaves])
      simp [compile, hcolumn, hrole, Option.filter_some] at h
  | literal value =>
      rw [compile] at h
      split at h
      next => cases h
      next hfinite =>
        cases h
        exact ⟨rfl, value, by simp [literals], by simpa using hfinite⟩
  | neg operand ih =>
      simp only [compile, bind_eq_error] at h
      rcases h with hoperand | ⟨_, -, ⟨⟩⟩
      exact ih hinputs hoperand
  | binary operator left right ihleft ihright =>
      simp only [leaves, List.forall_mem_append] at hinputs
      simp only [compile, bind_eq_error] at h
      rcases h with hleft | ⟨_, -, hright | ⟨_, -, ⟨⟩⟩⟩
      · obtain ⟨heq, value, hvalue, hfinite⟩ := ihleft hinputs.1 hleft
        exact ⟨heq, value, List.mem_append_left _ hvalue, hfinite⟩
      · obtain ⟨heq, value, hvalue, hfinite⟩ := ihright hinputs.2 hright
        exact ⟨heq, value, List.mem_append_right _ hvalue, hfinite⟩
  | ratio numerator denominator ihnumerator ihdenominator =>
      simp only [leaves, List.forall_mem_append] at hinputs
      simp only [compile, bind_eq_error] at h
      rcases h with hleft | ⟨_, -, hright | ⟨_, -, ⟨⟩⟩⟩
      · obtain ⟨heq, value, hvalue, hfinite⟩ := ihnumerator hinputs.1 hleft
        exact ⟨heq, value, List.mem_append_left _ hvalue, hfinite⟩
      · obtain ⟨heq, value, hvalue, hfinite⟩ := ihdenominator hinputs.2 hright
        exact ⟨heq, value, List.mem_append_right _ hvalue, hfinite⟩

theorem Plan.computeMetrics_failure {input : Plan} {keys : GroupKeys}
    {terms : List MetricTerm} {supply supply' : AliasSupply} {failure : Failure}
    (hgrouped : input.groupKeys? = some keys)
    (hkeys : ∀ name ∈ keys.names, name ∈ input.columnNames) (hne : terms ≠ [])
    (hinputs : ∀ term ∈ terms, ∀ name ∈ term.formula.leaves,
      ∃ column, input.column? name = some column ∧ column.role = .measure)
    (h : input.computeMetrics terms supply = (.error failure, supply')) :
    (∃ term ∈ terms, failure = .nonFiniteLiteral term.name ∧
        ∃ value ∈ term.formula.literals, Decimal.isFinite value = false) ∨
      (∃ name, failure = .duplicateColumn .computeMetrics name) ∧
        ¬ (keys.names ++ terms.map (·.name)).Nodup := by
  have hparts : input.metricParts terms = .error failure := by
    unfold computeMetrics at h
    split at h
    next found hfound =>
      cases h
      exact hfound
    next => cases h
  unfold metricParts at hparts
  rw [hgrouped] at hparts
  simp only at hparts
  split at hparts
  next hempty => exact absurd (List.isEmpty_iff.mp hempty) hne
  next =>
    simp only [bind_eq_error] at hparts
    rcases hparts with hmetric | ⟨metricColumns, hcolumns, hunique | ⟨⟨⟩, -, ⟨⟩⟩⟩
    · obtain ⟨term, hterm, hfail⟩ := mapM_eq_error hmetric
      simp only [metricColumn, bind_eq_error] at hfail
      rcases hfail with hcompile | ⟨_, -, ⟨⟩⟩
      exact .inl ⟨term, hterm, Formula.compile_eq_error (hinputs term hterm) hcompile⟩
    · obtain ⟨hname, hnot⟩ := ensureUnique_eq_error hunique
      have hmetricNames := map_name_of_forall₂ MetricTerm.name metricColumn_name
        (mapM_eq_ok.mp hcolumns)
      rw [List.map_append, hmetricNames, List.map_map] at hnot
      refine .inr ⟨hname, ?_⟩
      rw [← filterMap_column?_names hkeys]
      exact hnot

/-! ## Resolved requests -/

/-- Models have different names, no measure is hidden by another element of its
model, and every window is bounded by elements of its model. -/
structure Manifest.Consistent (manifest : Manifest) : Prop where
  models : (manifest.models.map (·.name)).Nodup
  measures : ∀ model ∈ manifest.models, ∀ measure ∈ model.measures,
    measure.name ∉ model.entities.map (·.name) ∧
      measure.name ∉ model.dimensions.map (·.name)
  windows : ∀ model ∈ manifest.models, ∀ window, model.window = some window →
    window.start ∈ model.elementNames ∧ window.stop ∈ model.elementNames

namespace Resolved

/-- What is read, from the anchor and from the linked models. -/
def reads (resolved : Resolved) : List (Model × List ElementRef) :=
  (resolved.anchor, resolved.elements) ::
    resolved.linked.map fun read => (read.model, read.elements)

/-- What can stand between a resolved request and its plan. -/
inductive Obstacle (resolved : Resolved) : Failure → Prop
  | grain {model : Model} {elements : List ElementRef} {ref : ElementRef} {element : Element}
      {failure : Failure} (hread : (model, elements) ∈ resolved.reads) (href : ref ∈ elements)
      (helement : model.element? ref.name = some element)
      (h : Model.checkGrain? element ref = .error failure) : Obstacle resolved failure
  | readNames {model : Model} {elements : List ElementRef} {name : String}
      (hread : (model, elements) ∈ resolved.reads)
      (h : ¬ (elements.map ElementRef.columnName).Nodup) :
      Obstacle resolved (.duplicateColumn .read name)
  | keyTypes {read : LinkedRead} {left right : DataType} (hread : read ∈ resolved.linked)
      (hleft : resolved.anchor.ReadsType resolved.elements read.entity left)
      (hright : read.model.ReadsType read.elements read.entity right) (h : left ≠ right) :
      Obstacle resolved (.joinKeyTypes read.entity left right)
  | joinNames {name : String} (h : ¬ resolved.joinNames.Nodup) :
      Obstacle resolved (.duplicateColumn .join name)
  | percentile {term : MeasureTerm} {fraction : Float} {discrete approximate : Bool}
      (hterm : term ∈ resolved.measures)
      (haggregation : term.aggregation = .percentile fraction discrete approximate)
      (h : ¬ (0.0 ≤ fraction ∧ fraction ≤ 1.0)) :
      Obstacle resolved (.invalidPercentile term.name fraction)
  | aggregateNames {name : String}
      (h : ¬ (resolved.keys.names ++ resolved.measures.map (·.name)).Nodup) :
      Obstacle resolved (.duplicateColumn .aggregate name)
  | literal {metric : Metric} {value : Float} (hmetric : metric ∈ resolved.metrics)
      (hvalue : value ∈ metric.formula.literals) (h : Decimal.isFinite value = false) :
      Obstacle resolved (.nonFiniteLiteral metric.name)
  | metricNames {name : String}
      (h : ¬ (resolved.keys.names ++ resolved.metrics.map (·.name)).Nodup) :
      Obstacle resolved (.duplicateColumn .computeMetrics name)

end Resolved

namespace Model

theorem name_mem_of_element? {model : Model} {name : String} {element : Element}
    (h : model.element? name = some element) : name ∈ model.elementNames := by
  simp only [elementNames, List.mem_append, List.mem_map]
  unfold element? at h
  split at h
  next entity hentity => exact .inl (.inl ⟨entity, entity?_mem hentity⟩)
  next =>
    split at h
    next dimension hdimension => exact .inl (.inr ⟨dimension, dimension?_mem hdimension⟩)
    next =>
      obtain ⟨measure, hmeasure, -⟩ := Option.map_eq_some_iff.mp h
      exact .inr ⟨measure, measure?_mem hmeasure⟩

theorem exists_element? {model : Model} {name : String} (h : name ∈ model.elementNames) :
    ∃ element, model.element? name = some element := by
  unfold element?
  cases hentity : model.entity? name with
  | some entity => exact ⟨_, rfl⟩
  | none =>
      cases hdimension : model.dimension? name with
      | some dimension => exact ⟨_, rfl⟩
      | none =>
          have hmeasure : ∃ measure ∈ model.measures, measure.name = name := by
            have hnoEntity := List.find?_eq_none.mp hentity
            have hnoDimension := List.find?_eq_none.mp hdimension
            simp only [elementNames, List.mem_append, List.mem_map] at h
            rcases h with (⟨entity, hmem, rfl⟩ | ⟨dimension, hmem, rfl⟩) | hmeasure
            · simpa using hnoEntity entity hmem
            · simpa using hnoDimension dimension hmem
            · exact hmeasure
          obtain ⟨measure, hmem, hname⟩ := hmeasure
          have hsome : (model.measure? name).isSome := by
            rw [measure?, List.find?_isSome]
            exact ⟨measure, hmem, by simp [hname]⟩
          obtain ⟨found, hfound⟩ := Option.isSome_iff_exists.mp hsome
          exact ⟨.measure found, by simp [hfound]⟩

end Model

theorem Manifest.Consistent.measure_role {manifest : Manifest} {model : Model} {name : String}
    {measure : Measure} {element : Element} (h : manifest.Consistent)
    (hmodel : model ∈ manifest.models) (hmeasure : model.measure? name = some measure)
    (helement : model.element? name = some element) : element.role = .measure := by
  obtain ⟨hmem, rfl⟩ := Model.measure?_mem hmeasure
  obtain ⟨hentity, hdimension⟩ := h.measures model hmodel measure hmem
  unfold Model.element? at helement
  split at helement
  next entity hfound =>
    obtain ⟨hentities, heq⟩ := Model.entity?_mem hfound
    exact absurd (heq ▸ List.mem_map_of_mem hentities) hentity
  next =>
    split at helement
    next dimension hfound =>
      obtain ⟨hdimensions, heq⟩ := Model.dimension?_mem hfound
      exact absurd (heq ▸ List.mem_map_of_mem hdimensions) hdimension
    next =>
      rw [hmeasure] at helement
      cases helement
      rfl

section Built

variable {manifest : Manifest} {request : Request} {resolved : Resolved} {failure : Failure}

/-- Every name that is read is one of the model. -/
theorem Resolved.Sorted.known (hsorted : resolved.Sorted manifest request)
    (hmanifest : manifest.Consistent)
    (hmeasured : manifest.Measured resolved.metrics resolved.anchor resolved.measures) :
    ∀ model elements, (model, elements) ∈ resolved.reads →
      ∀ ref ∈ elements, ∃ element, model.element? ref.name = some element := by
  intro model elements hreads ref href
  rcases List.mem_cons.mp hreads with heq | hlinked
  · cases heq
    rcases hsorted.element_cases ref href with ⟨item, hitem, hvia, rfl⟩ |
      ⟨entity, hentity, -⟩ | ⟨dimension, hdimension, rfl⟩ | ⟨term, hterm, rfl⟩
    · obtain ⟨element, helement, -⟩ :=
        (Manifest.resolves_iff_of_local hvia).mp (hsorted.resolves item hitem)
      exact ⟨element, helement⟩
    · exact ⟨_, Model.element?_of_entity? hentity⟩
    · exact Model.exists_element? (Model.name_mem_of_timeDimension? hdimension)
    · obtain ⟨-, measure, hmeasure, -⟩ := hmeasured.found term hterm
      obtain ⟨element, helement, -⟩ := Model.element?_of_measure? hmeasure
      exact ⟨element, helement⟩
  · obtain ⟨read, hread, heq⟩ := List.mem_map.mp hlinked
    cases heq
    obtain ⟨before, hcollects, rfl⟩ := hsorted.collects read hread
    rw [before.widens_widened.model_eq]
    rcases LinkedRead.mem_widened href with href | ⟨window, hwindow, href⟩
    · rw [hcollects.elements_eq, List.mem_cons] at href
      rcases href with rfl | href
      · obtain ⟨entity, hentity⟩ := hcollects.entity?
        exact ⟨_, Model.element?_of_entity? hentity⟩
      · obtain ⟨item, hitem, rfl⟩ := List.mem_map.mp href
        obtain ⟨-, hlink⟩ := List.mem_filter.mp hitem
        obtain ⟨-, hmodel⟩ :=
          hcollects.linkedModel?_eq hmanifest.models (by simpa using hlink)
        obtain ⟨-, dimension, hdimension⟩ := Manifest.linkedModel?_eq_some hmodel
        obtain ⟨element, helement, -⟩ := Model.element?_of_dimension? hdimension
        exact ⟨element, helement⟩
    · obtain ⟨hstart, hstop⟩ :=
        hmanifest.windows before.model hcollects.model_mem window hwindow
      rcases href with rfl | rfl
      · exact Model.exists_element? hstart
      · exact Model.exists_element? hstop

/-- A stage below the join is refused only for a grain or a repeated name. -/
theorem Resolved.read_obstacle (hsorted : resolved.Sorted manifest request)
    (hmanifest : manifest.Consistent)
    (hmeasured : manifest.Measured resolved.metrics resolved.anchor resolved.measures)
    {model : Model} {elements : List ElementRef} {supply supply' : AliasSupply}
    (hreads : (model, elements) ∈ resolved.reads) (hne : elements ≠ [])
    (h : model.read elements supply = (.error failure, supply')) :
    resolved.Obstacle failure := by
  have hknown := hsorted.known hmanifest hmeasured model elements hreads
  rcases Model.read_failure hne hknown h with
    ⟨ref, href, element, helement, hcheck⟩ | ⟨⟨name, rfl⟩, hnot⟩
  · exact .grain hreads href helement hcheck
  · exact .readNames hreads hnot

theorem Resolved.Sorted.reads_matches (hsorted : resolved.Sorted manifest request)
    {primary : Plan} {supply : AliasSupply}
    (hread : resolved.anchor.read resolved.elements {} = (.ok primary, supply)) :
    ∀ read ∈ resolved.linked, read.Matches resolved.time primary := by
  intro read hmem
  refine ⟨Model.mem_columnNames_of_read hread (hsorted.link_mem read hmem),
    fun time htime => Model.mem_columnNames_of_read hread (hsorted.time_mem time htime), ?_, ?_⟩
  · obtain ⟨before, hcollects, rfl⟩ := hsorted.collects read hmem
    obtain ⟨more, helements⟩ := LinkedRead.elements_widened hcollects.elements_eq
    rw [helements, before.widens_widened.entity_eq, List.map_cons]
    exact List.mem_cons_self
  · intro window hwindow
    have hbounded := hsorted.bounded read hmem window hwindow
    exact ⟨List.mem_map_of_mem hbounded.start_mem, List.mem_map_of_mem hbounded.stop_mem⟩

/-- Every key is a column below the aggregation by which rows can be grouped. -/
theorem Resolved.key_shown {primary joined : Plan} {targets : List JoinTarget}
    {s₁ s₂ s₃ : AliasSupply} (hmodels : (manifest.models.map (·.name)).Nodup)
    (hsorted : resolved.Sorted manifest request)
    (hkeys : resolved.keys.names = request.groupBy.map (·.columnName))
    (hread : resolved.anchor.read resolved.elements {} = (.ok primary, s₁))
    (hreads : LinkedRead.readAll resolved.time resolved.linked s₁ = .ok (targets, s₂))
    (hjoin : primary.joinTargets targets s₂ = (.ok joined, s₃)) :
    ∀ key ∈ resolved.keys.names, ∃ element, joined.Shows key element ∧
      element.role.isGroupable := by
  intro key hkey
  rw [hkeys] at hkey
  obtain ⟨item, hitem, rfl⟩ := List.mem_map.mp hkey
  obtain ⟨element, helement, -, hshows⟩ :=
    Resolved.joined_shows hmodels hsorted hread hreads hjoin hitem
  obtain ⟨found, hfound, hrole⟩ := (hsorted.resolves item hitem).itemElement?
  cases helement.symm.trans hfound
  exact ⟨element, hshows, hrole⟩

theorem Resolved.measure_shown {primary joined : Plan} {targets : List JoinTarget}
    {s₁ s₂ s₃ : AliasSupply} (hmanifest : manifest.Consistent)
    (hsorted : resolved.Sorted manifest request)
    (hmeasured : manifest.Measured resolved.metrics resolved.anchor resolved.measures)
    (hread : resolved.anchor.read resolved.elements {} = (.ok primary, s₁))
    (hjoin : primary.joinTargets targets s₂ = (.ok joined, s₃)) :
    ∀ term ∈ resolved.measures, ∃ element, joined.Shows term.name element ∧
      element.role = .measure := by
  intro term hterm
  obtain ⟨-, measure, hmeasure, -⟩ := hmeasured.found term hterm
  obtain ⟨element, helement, -, hshows⟩ :=
    Model.read_shows hread (hsorted.measure_mem term hterm)
  exact ⟨element, Plan.joinTargets_shows_left hjoin hshows,
    hmanifest.measure_role hmeasured.anchor_mem hmeasure helement⟩

/-- Every input of a formula has been aggregated. -/
theorem Manifest.Measured.input_aggregated {metrics : List Metric} {anchor : Model}
    {terms : List MeasureTerm} (h : manifest.Measured metrics anchor terms)
    {joined aggregated : Plan} {keys : GroupKeys} {s₃ s₄ : AliasSupply}
    (haggregate : joined.aggregateBy keys terms s₃ = (.ok aggregated, s₄)) :
    ∀ metric ∈ metrics, ∀ name ∈ metric.formula.leaves,
      ∃ column, aggregated.column? name = some column ∧ column.role = .measure := by
  intro metric hmetric name hname
  have hmem : name ∈ terms.map (·.name) := by
    rw [h.names_eq, List.mem_eraseDups]
    exact List.mem_flatMap.mpr ⟨metric, hmetric, Formula.mem_inputs.mpr hname⟩
  obtain ⟨term, hterm, rfl⟩ := List.mem_map.mp hmem
  exact Plan.aggregateBy_measure haggregate hterm

theorem Resolved.plan_eq_error (hmanifest : manifest.Consistent)
    (hresolve : manifest.resolve request = .ok resolved)
    (h : resolved.plan = .error failure) : resolved.Obstacle failure := by
  have hsorted := Manifest.resolve_sorted hresolve
  obtain ⟨hasked, hmetrics, hmeasures, hkeys, -⟩ := Manifest.resolve_eq_ok hresolve
  have hmeasured := Manifest.resolveMeasures_measured hmanifest.models hmeasures
  obtain ⟨term, hterm⟩ := List.exists_mem_of_ne_nil _ hmeasured.nonempty
  have hself : (resolved.anchor, resolved.elements) ∈ resolved.reads := List.mem_cons_self
  unfold Resolved.plan at h
  split at h
  next found supply hread =>
    cases h
    exact Resolved.read_obstacle hsorted hmanifest hmeasured hself
      (List.ne_nil_of_mem (hsorted.measure_mem term hterm)) hread
  next primary s₁ hread =>
    rcases bind_eq_error.mp h with hreads | ⟨⟨targets, s₂⟩, hreads, h⟩
    · obtain ⟨read, hmem, before, after, hfail⟩ := LinkedRead.readAll_eq_error hreads
      obtain ⟨ref, href, -⟩ :=
        List.mem_map.mp (hsorted.reads_matches hread read hmem).entity_right
      exact Resolved.read_obstacle hsorted hmanifest hmeasured
        (List.mem_cons_of_mem _ (List.mem_map.mpr ⟨read, hmem, rfl⟩))
        (List.ne_nil_of_mem href) hfail
    · obtain ⟨htargets, -⟩ := LinkedRead.readAll_eq_ok hreads
      simp only at h
      split at h
      next found supply hjoin =>
        cases h
        rcases Plan.joinTargets_failure htargets (hsorted.reads_matches hread) hjoin with
          ⟨read, hmem, column, left, right, hcolumn, htype, hright, hne, rfl⟩ |
          ⟨⟨name, rfl⟩, hnot⟩
        · exact .keyTypes hmem (Model.read_readsType hread hcolumn htype) hright hne
        · refine .joinNames ?_
          rwa [(Model.read_columnNames hread).1,
            LinkedRead.flatMap_gains_names htargets] at hnot
      next joined s₃ hjoin =>
        have hkeyShown :=
          Resolved.key_shown hmanifest.models hsorted hkeys hread hreads hjoin
        have hmeasureShown := Resolved.measure_shown hmanifest hsorted hmeasured hread hjoin
        split at h
        next found supply haggregate =>
          cases h
          rcases Plan.aggregateBy_failure hkeyShown hmeasureShown hmeasured.nonempty
              haggregate with ⟨term, hterm, column, hexpr⟩ | ⟨⟨name, rfl⟩, hnot⟩
          · obtain ⟨fraction, discrete, approximate, haggregation, hrange, rfl⟩ :=
              MeasureTerm.expr_eq_error hexpr
            exact .percentile hterm haggregation hrange
          · exact .aggregateNames hnot
        next aggregated s₄ haggregate =>
          obtain ⟨columns, -, haggregated, -⟩ := Plan.aggregateBy_eq_ok haggregate
          have hkept : ∀ name ∈ resolved.keys.names, name ∈ aggregated.columnNames := by
            intro name hname
            rw [(Plan.aggregateBy_columnNames haggregate).1]
            exact List.mem_append_left _ hname
          have hinputs := hmeasured.input_aggregated haggregate
          have hne : resolved.metrics ≠ [] := by
            intro hnil
            rw [hnil, List.forall₂_nil_right_iff] at hmetrics
            exact hasked hmetrics
          rcases Plan.computeMetrics_failure (by rw [haggregated]; rfl) hkept
              (by simpa using hne) (by simpa using hinputs) (Prod.ext h rfl) with
            ⟨term, hterm, rfl, value, hvalue, hfinite⟩ | ⟨⟨name, rfl⟩, hnot⟩
          · obtain ⟨metric, hmetric, rfl⟩ := List.mem_map.mp hterm
            exact .literal hmetric hvalue hfinite
          · refine .metricNames ?_
            rwa [List.map_map] at hnot

end Built

/-! ## What a failed request reports -/

namespace Failure

/-- A name that is not found although the request was resolved. -/
def isLostName : Failure → Bool
  | unresolvedElement stage .. => stage = .read
  | missingMeasure .. | missingDimension .. | aggregationBeforeJoin .. | unresolvedJoinKey ..
  | noJoinKeys .. | notAggregated .. | unresolvedMetricInput .. => true
  | emptyQuery stage => stage ≠ .request
  | _ => false

/-- What the request or the values in it can be blamed for. -/
def isReported : Failure → Bool
  | duplicateColumn .. | invalidGrain .. | joinKeyTypes .. | invalidPercentile ..
  | nonFiniteLiteral .. => true
  | failure => failure.stage = .request

end Failure

theorem Model.checkGrain?_eq_error {element : Element} {ref : ElementRef} {failure : Failure}
    (h : checkGrain? element ref = .error failure) :
    ∃ grain reason, failure = .invalidGrain ref.name grain reason := by
  unfold checkGrain? at h
  split at h
  next grain _ =>
    unfold checkGrain at h
    split at h
    next dimension =>
      split at h
      next finest _ =>
        split at h
        next =>
          cases h
          exact ⟨grain, _, rfl⟩
        next =>
          split at h
          next =>
            cases h
            exact ⟨grain, _, rfl⟩
          next => cases h
      next =>
        cases h
        exact ⟨grain, _, rfl⟩
    next =>
      cases h
      exact ⟨grain, _, rfl⟩
  next => cases h

theorem Manifest.plan_failure {manifest : Manifest} {request : Request} {failure : Failure}
    (hmanifest : manifest.Consistent) (h : manifest.plan request = .error failure) :
    failure.isLostName = false ∧ failure.isReported = true := by
  rcases bind_eq_error.mp h with hresolve | ⟨resolved, hresolve, hplan⟩
  · cases Manifest.resolve_eq_error hmanifest.models hresolve with
    | _ => exact ⟨rfl, rfl⟩
  · cases Resolved.plan_eq_error hmanifest hresolve hplan with
    | grain hread href helement hcheck =>
        obtain ⟨grain, reason, rfl⟩ := Model.checkGrain?_eq_error hcheck
        exact ⟨rfl, rfl⟩
    | _ => exact ⟨rfl, rfl⟩

namespace Sample

theorem manifest_consistent : manifest.Consistent where
  models := by decide
  measures := by decide
  windows := by decide

/-- A country is no time, which is noticed when the listings are read. -/
theorem country_by_month_failure :
    manifest.Consistent ∧
      ∃ failure, manifest.plan
          { metrics := ["half"]
            groupBy := [{ name := "country", via := some "listing", grain := some .month }] } =
            .error failure ∧
        failure.stage = .read ∧ failure.isLostName = false ∧ failure.isReported = true := by
  have hplan : manifest.plan
      { metrics := ["half"]
        groupBy := [{ name := "country", via := some "listing", grain := some .month }] } =
      .error (.invalidGrain "country" .month "not a time dimension") := by
    rfl
  exact ⟨manifest_consistent, _, hplan, rfl, Manifest.plan_failure manifest_consistent hplan⟩

end Sample

end MetricSql
