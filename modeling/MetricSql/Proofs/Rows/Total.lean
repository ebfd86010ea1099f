import MetricSql.Proofs.Rows.Join

/-!
# Totals

However a metric is sliced, its slices add up to the same.  A read has a row for
each row of the table, a join that looks up one row at most neither loses nor
repeats a row, and every row is in exactly one group, nulls included; so the sum
of a measure passes through all stages of a plan.
-/

namespace MetricSql

/-- The number in a cell, zero for null. -/
def Cell.amount (cell : Cell) : ℚ := cell.number?.getD 0

/-- The sum of a column over all rows. -/
def columnTotal (name : String) (rows : List Row) : ℚ :=
  (rows.map fun row => (row.cell name).amount).sum

/-- The value of a measure in a row of the table. -/
def Measure.cell (measure : Measure) (row : Row) : Cell :=
  match measure.source with
  | .column column => row.cell column
  | .constant value => some (.number value.toInt)

theorem Cell.amount_sum (cells : List Cell) :
    (Cell.sum cells).amount = (cells.map Cell.amount).sum := by
  have hnumbers : (Cell.sum cells).amount = (cells.filterMap Cell.number?).sum := by
    unfold Cell.sum
    split
    next hnil =>
      rw [hnil]
      rfl
    next => rfl
  rw [hnumbers]
  clear hnumbers
  induction cells with
  | nil => rfl
  | cons cell rest ih =>
      cases hnumber : Cell.number? cell with
      | none => simp [Cell.amount, hnumber, ih]
      | some x => simp [Cell.amount, hnumber, ih]

/-! ## Stages that compute row by row -/

theorem Row.cell_of_columns {columns : List Column} (hnodup : (columns.map (·.name)).Nodup)
    {column : Column} (h : column ∈ columns) (value : Column → Cell) :
    Row.cell (columns.map fun column => (column.name, value column)) column.name =
      value column := by
  apply Row.cell_of_mem
  · simpa [Function.comp_def] using hnodup
  · exact List.mem_map.mpr ⟨column, h, rfl⟩

/-- A column that is taken from another relation adds up to what it has there. -/
theorem columnTotal_project {w : Warehouse} {columns : List Column} {scopes : List Scope}
    (hrowwise : ∀ column ∈ columns, ∀ part ∈ column.expr.parts, part.isAggregate = false)
    (hnodup : (columns.map (·.name)).Nodup) {column : Column} (hcolumn : column ∈ columns)
    {aliasName name : String} (hexpr : column.expr = .of aliasName name) :
    columnTotal column.name (project w (Plan.selectItems columns) [] scopes) =
      (scopes.map fun scope => (scope.cell aliasName name).amount).sum := by
  rw [project_selectItems hrowwise, columnTotal, List.map_map]
  congr 1
  refine List.map_congr_left fun scope _ => ?_
  rw [Function.comp_apply,
    Row.cell_of_columns hnodup hcolumn fun column => column.expr.cell w [scope] scope, hexpr,
    Expr.cell_of]

theorem isAggregate_of {aliasName name : String} :
    ∀ part ∈ (Expr.of aliasName name).parts, part.isAggregate = false := by
  simp [Expr.of, Expr.parts, Expr.isAggregate]

/-- A column of a subquery adds up over its scopes to the total of the column. -/
theorem sum_sourceScopes (w : Warehouse) (query : Query) (aliasName name : String) :
    ((sourceScopes w (some (.subquery query aliasName))).map fun scope =>
      (scope.cell aliasName name).amount).sum = columnTotal name (query.rows w) := by
  rw [sourceScopes, Relation.rows, Relation.aliasName, List.map_map, columnTotal]
  congr 1
  refine List.map_congr_left fun row _ => ?_
  rw [Function.comp_apply, Scope.cell_of_mem (by simp) List.mem_cons_self]

theorem Model.read_total {model : Model} (hplain : model.Plain) {w : Warehouse}
    {elements : List ElementRef} {supply supply' : AliasSupply} {node : Plan}
    (h : model.read elements supply = (.ok node, supply')) {name : String}
    {measure : Measure} (hmem : ⟨name, none⟩ ∈ elements)
    (hmeasure : model.element? name = some (.measure measure)) :
    columnTotal name (node.query.rows w) =
      ((w.rows model.table).map fun row => (measure.cell row).amount).sum := by
  obtain ⟨hnames, hnodup⟩ := Model.read_columnNames h
  rw [hnames] at hnodup
  rw [Model.read_rows hplain h, columnTotal, List.map_map]
  congr 1
  refine List.map_congr_left fun row _ => ?_
  have hcell : (model.elementRow w elements row).cell name = model.cell w row ⟨name, none⟩ :=
    Model.elementRow_cell hnodup hmem row
  have hvalue : model.cell w row ⟨name, none⟩ = measure.cell row := by
    rw [Model.cell, hmeasure]
    rfl
  rw [Function.comp_apply, hcell, hvalue]

/-! ## Joins -/

namespace LinkedRead

/-- A linked model of which one row at most belongs to any left side. -/
structure Identified (w : Warehouse) (anchor : Model) (time : Option String)
    (read : LinkedRead) : Prop where
  plain : read.model.Plain
  identifies : read.model.Identifies w read.entity
  key_mem : ⟨read.entity, none⟩ ∈ read.elements
  bounded : ∀ window, read.model.window = some window → Bounded anchor time read window

variable {w : Warehouse} {anchor : Model} {time : Option String} {primary : String}

theorem Identified.partners_length {read : LinkedRead} (h : read.Identified w anchor time)
    {before after : AliasSupply} {node : Plan}
    (hnode : read.model.read read.elements before = (.ok node, after)) {scope : Scope}
    (hprimary : primary ≠ node.aliasName) (halias : node.aliasName ∉ scope.map Prod.fst) :
    (partners w (Plan.conditions node.aliasName (read.joined time primary node).keys
      (read.joined time primary node).window) node.aliasName (node.query.rows w)
      scope).length ≤ 1 := by
  obtain ⟨hnames, hnodup⟩ := Model.read_columnNames hnode
  rw [hnames] at hnodup
  have hadmits := conditions_hold_iff hnodup h.key_mem h.bounded hprimary halias (w := w)
  rw [partners, Model.read_rows h.plain hnode, List.filter_map, List.length_map]
  refine le_of_eq_of_le ?_ (admits_length h.identifies (scope.cell primary read.entity)
    (time.bind (scope.cell primary ·)))
  congr 1
  exact List.filter_congr fun partner _ => hadmits partner

/-- Joining such models one after the other extends every scope, and leaves in it what
was there. -/
theorem joinedScopes_identified {reads : List LinkedRead} {targets : List JoinTarget}
    (htargets : List.Forall₂ (IsTarget time) reads targets)
    (hreads : ∀ read ∈ reads, read.Identified w anchor time)
    (hprimary : primary ∉ targets.map (·.node.aliasName)) (scopes : List Scope)
    (haliases : ∀ scope ∈ scopes,
      (scope.map Prod.fst ++ targets.map (·.node.aliasName)).Nodup) :
    ∃ extend : Scope → Scope,
      joinedScopes w scopes (Plan.joinedQueries
          (List.zipWith (fun read target => read.joined time primary target.node)
            reads targets)) = scopes.map extend ∧
        ∀ scope ∈ scopes, ∀ name, (extend scope).cell primary name =
          scope.cell primary name := by
  induction htargets generalizing scopes with
  | nil => exact ⟨id, by simp [Plan.joinedQueries, joinedScopes], fun _ _ _ => rfl⟩
  | @cons read target reads targets htarget _ ih =>
      obtain ⟨node, before, after, hnode, rfl⟩ := htarget
      rw [List.map_cons, List.mem_cons, not_or] at hprimary
      set on := Plan.conditions node.aliasName (read.joined time primary node).keys
        (read.joined time primary node).window
      -- Only the alias of the linked model is new, so the left side still reads the same.
      let step (scope : Scope) : Scope := scope ++
        [(node.aliasName, (partners w on node.aliasName (node.query.rows w) scope).headD [])]
      have hstep : scopes.flatMap
          (joinRow w .leftOuter on node.aliasName (node.query.rows w)) = scopes.map step := by
        rw [List.map_eq_flatMap]
        refine List.flatMap_congr fun scope hscope => joinRow_leftOuter ?_
        refine (hreads read List.mem_cons_self).partners_length hnode hprimary.1 fun hmem => ?_
        exact (List.nodup_append.mp (haliases scope hscope)).2.2 _ hmem _ List.mem_cons_self rfl
      obtain ⟨extend, hextend, hcell⟩ := ih
        (fun other hother => hreads other (List.mem_cons_of_mem _ hother)) hprimary.2
        (scopes.map step) (by
          intro scope hscope
          obtain ⟨old, hold, rfl⟩ := List.mem_map.mp hscope
          simpa [step, target] using haliases old hold)
      refine ⟨extend ∘ step, ?_, ?_⟩
      · rw [List.zipWith_cons_cons, joinedQueries_cons, joinedScopes, Relation.aliasName,
          Relation.rows, ← List.map_map, ← hextend]
        exact congrArg (joinedScopes w · _) hstep
      · intro scope hscope name
        rw [Function.comp_apply, hcell _ (List.mem_map_of_mem hscope)]
        exact Scope.cell_concat_of_ne (Ne.symm hprimary.1) name

end LinkedRead

/-- Every model that an item is linked to has one row at most for each value of the entity
and each time. -/
def Manifest.Identifies (manifest : Manifest) (w : Warehouse) (anchor : Model)
    (items : List GroupItem) : Prop :=
  ∀ item ∈ items, ∀ entity model, item.via = some entity →
    manifest.linkedModel? entity item.name anchor.name = some model →
      model.Identifies w entity

section Built

variable {manifest : Manifest} {request : Request} {resolved : Resolved}
  {primary joined : Plan} {targets : List JoinTarget} {s₁ s₂ s₃ : AliasSupply}

theorem Resolved.Sorted.identified (hsorted : resolved.Sorted manifest request)
    (hplain : ∀ model ∈ manifest.models, model.Plain) {w : Warehouse}
    (hidentifies : manifest.Identifies w resolved.anchor request.groupBy) :
    ∀ read ∈ resolved.linked, read.Identified w resolved.anchor resolved.time := by
  intro read hread
  have hbounded := hsorted.bounded read hread
  obtain ⟨before, hcollects, rfl⟩ := hsorted.collects read hread
  obtain ⟨item, hitem, hvia, hmodel⟩ := hcollects.found
  have hwidens := before.widens_widened
  refine ⟨?_, ?_, ?_, hbounded⟩
  · rw [hwidens.model_eq]
    exact hplain _ hcollects.model_mem
  · rw [hwidens.model_eq, hwidens.entity_eq]
    exact hidentifies item hitem _ _ hvia hmodel
  · rw [hwidens.entity_eq]
    apply hwidens.elements_mem
    rw [hcollects.elements_eq]
    exact List.mem_cons_self

/-- The join changes no total of the anchor. -/
theorem Resolved.join_total (hsorted : resolved.Sorted manifest request) {w : Warehouse}
    (hidentified : ∀ read ∈ resolved.linked, read.Identified w resolved.anchor resolved.time)
    (hread : resolved.anchor.read resolved.elements {} = (.ok primary, s₁))
    (hreads : LinkedRead.readAll resolved.time resolved.linked s₁ = .ok (targets, s₂))
    (hjoin : primary.joinTargets targets s₂ = (.ok joined, s₃)) {name : String}
    (hname : name ∈ primary.columnNames) :
    columnTotal name (joined.query.rows w) = columnTotal name (primary.query.rows w) := by
  rcases Plan.joinTargets_eq_ok hjoin with ⟨-, rfl, -⟩ | ⟨found, -, hattach, hnodup, rfl, -⟩
  · rfl
  · have htargets := (LinkedRead.readAll_eq_ok hreads).1
    have haliases := Resolved.aliases_nodup hread hreads
    rw [hsorted.joined_eq hread htargets hattach]
    obtain ⟨extend, hextend, hcell⟩ := LinkedRead.joinedScopes_identified htargets hidentified
      (List.nodup_cons.mp haliases).1
      (sourceScopes w (some (.subquery primary.query primary.aliasName))) (by
        intro scope hscope
        rw [sourceScopes] at hscope
        obtain ⟨row, -, rfl⟩ := List.mem_map.mp hscope
        exact haliases)
    obtain ⟨column, hcolumn, rfl⟩ := List.mem_map.mp hname
    have hmem : (LeftColumn.ofColumn primary.aliasName id column).toColumn ∈
        (primary.leftColumns ++ targets.flatMap JoinTarget.gains).map LeftColumn.toColumn :=
      List.mem_map_of_mem (List.mem_append_left _ (List.mem_map_of_mem hcolumn))
    have hrowwise : ∀ column ∈ (primary.leftColumns ++ targets.flatMap JoinTarget.gains).map
        LeftColumn.toColumn, ∀ part ∈ column.expr.parts, part.isAggregate = false := by
      intro column hcolumn
      obtain ⟨source, -, rfl⟩ := List.mem_map.mp hcolumn
      exact isAggregate_of
    rw [Plan.query, Query.rows, hextend]
    refine (columnTotal_project hrowwise hnodup hmem rfl).trans ?_
    rw [List.map_map]
    refine Eq.trans ?_ (sum_sourceScopes w primary.query primary.aliasName column.name)
    congr 1
    refine List.map_congr_left fun scope hscope => ?_
    exact congrArg Cell.amount (hcell scope hscope column.name)

end Built

/-! ## Groups -/

/-- Every row is in one group, so the groups add up to what the rows add up to. -/
theorem sum_groupsOf (w : Warehouse) (groupBy : List Expr) (scopes : List Scope)
    (f : Scope → ℚ) :
    ((groupsOf w groupBy scopes).map fun group => (group.map f).sum).sum =
      (scopes.map f).sum := by
  have hperm : (groupsOf w groupBy scopes).flatten.Perm scopes := by
    unfold groupsOf
    split
    · simp
    · refine flatMap_filter_perm (List.nodup_dedup _) fun scope hscope => ?_
      rw [List.mem_dedup]
      exact List.mem_map_of_mem hscope
  calc
    _ = ((groupsOf w groupBy scopes).flatten.map f).sum := by
        rw [List.map_flatten, List.sum_flatten, List.map_map]
        rfl
    _ = (scopes.map f).sum := (hperm.map f).sum_eq

theorem Expr.cell_sum_of (w : Warehouse) (group : List Scope) (scope : Scope)
    (aliasName name : String) :
    (Expr.of aliasName name).sum.cell w group scope =
      Cell.sum (group.map fun row => row.cell aliasName name) := by
  rw [Expr.sum, Expr.cell, if_pos (by decide), Warehouse.fold, if_pos rfl]
  simp [Expr.argCells, List.map_eq_flatMap]

theorem Plan.aggregateBy_source {input node : Plan} {keys : GroupKeys}
    {measures : List MeasureTerm} {supply supply' : AliasSupply} {term : MeasureTerm}
    (h : input.aggregateBy keys measures supply = (.ok node, supply'))
    (hterm : term ∈ measures) :
    ∃ source, input.column? term.name = some source ∧ source.role = .measure := by
  obtain ⟨columns, hcolumns, -⟩ := aggregateBy_eq_ok h
  obtain ⟨-, keyColumns, measureColumns, -, hmeasures, -⟩ := aggregateColumns_eq_ok hcolumns
  obtain ⟨column, -, hok⟩ := forall₂_exists_left hmeasures.flip hterm
  obtain ⟨source, expr, hsource, hrole, -⟩ := measureColumn_eq_ok hok
  exact ⟨source, hsource, hrole⟩

/-- The sums of the groups add up to the sum of all rows. -/
theorem Plan.aggregateBy_total {input node : Plan} {keys : GroupKeys}
    {measures : List MeasureTerm} {supply supply' : AliasSupply} {w : Warehouse}
    {name : String} (h : input.aggregateBy keys measures supply = (.ok node, supply'))
    (hterm : ⟨name, .sum⟩ ∈ measures) :
    columnTotal name (node.query.rows w) = columnTotal name (input.query.rows w) := by
  obtain ⟨columns, hcolumns, rfl, -⟩ := aggregateBy_eq_ok h
  obtain ⟨-, keyColumns, measureColumns, -, hmeasures, rfl, hnodup⟩ :=
    aggregateColumns_eq_ok hcolumns
  obtain ⟨column, hcolumn, hok⟩ := forall₂_exists_left hmeasures.flip hterm
  obtain ⟨source, expr, -, -, hexpr, rfl⟩ := measureColumn_eq_ok hok
  cases hexpr
  set columns := keyColumns ++ measureColumns
  have hmem := List.mem_append_right keyColumns hcolumn
  -- Without keys the sum alone makes all rows one group.
  have hgrouped : ∀ groupBy, isGrouped (selectItems columns) groupBy = true := by
    intro groupBy
    rw [isGrouped, Bool.or_eq_true, List.any_eq_true]
    refine .inr ⟨_, List.mem_map_of_mem hmem, ?_⟩
    simp [Expr.sum, Expr.parts, Expr.isAggregate, aggregateNames]
  have hamount : ∀ group scope,
      (Row.cell (selectRow w (selectItems columns) group scope) name).amount =
        (group.map fun row => (row.cell input.aliasName name).amount).sum := by
    intro group scope
    have hrow : selectRow w (selectItems columns) group scope =
        columns.map fun column => (column.name, column.expr.cell w group scope) := by
      simp [selectRow, selectItems]
    have hcell := Row.cell_of_columns hnodup hmem fun column => column.expr.cell w group scope
    rw [hrow, hcell, Expr.cell_sum_of, Cell.amount_sum, List.map_map]
    rfl
  rw [query, Query.rows, project, if_pos (hgrouped _), columnTotal, List.map_map]
  simp only [Function.comp_def, hamount]
  rw [sum_groupsOf, joinedScopes, sum_sourceScopes]

/-- A metric that shows one measure adds up to what the measure adds up to. -/
theorem Plan.computeMetrics_total {input node : Plan} {supply supply' : AliasSupply}
    {w : Warehouse} {name measure : String}
    (h : input.computeMetrics [⟨name, .input measure⟩] supply = (.ok node, supply')) :
    columnTotal name (node.query.rows w) = columnTotal measure (input.query.rows w) := by
  obtain ⟨keys, columns, hparts, rfl, -⟩ := computeMetrics_eq_ok h
  obtain ⟨-, -, metricColumns, hmetrics, rfl, hnodup⟩ := metricParts_eq_ok hparts
  cases hmetrics with
  | cons hok hnil =>
      cases hnil
      obtain ⟨expr, dataType, hcompile, rfl⟩ := metricColumn_eq_ok hok
      have hexpr : expr = .of input.aliasName measure := by
        unfold Formula.compile at hcompile
        split at hcompile
        next => cases hcompile; rfl
        next => cases hcompile
      subst hexpr
      rw [query, Query.rows, columnTotal_project ?_ hnodup
        (List.mem_append_right _ List.mem_cons_self) rfl]
      · rw [joinedScopes, sum_sourceScopes]
      · intro column hcolumn
        rcases List.mem_append.mp hcolumn with hkey | hmetric
        · obtain ⟨source, -, rfl⟩ := List.mem_map.mp hkey
          exact isAggregate_of
        · rw [List.mem_singleton.mp hmetric]
          exact isAggregate_of

/-! ## Requests -/

theorem Manifest.resolveMeasures_input {manifest : Manifest} {metric : Metric}
    {input : String} {anchor : Model} {measure : Measure}
    (hformula : metric.formula = .input input)
    (hanchor : manifest.modelOfMeasure? input = some anchor)
    (hmeasure : anchor.measure? input = some measure) :
    manifest.resolveMeasures [metric] = .ok (anchor, [⟨input, measure.aggregation⟩]) := by
  have hname := (Model.measure?_mem hmeasure).2
  simp [Manifest.resolveMeasures, MeasureSet.addMetric, Metric.inputs, Formula.inputs,
    Formula.addInputs, hformula, MeasureSet.addInput, hanchor, MeasureSet.insert, hmeasure,
    hname]
  rfl

/-- A metric that shows the sum of one measure, and the model that has the measure. -/
structure Manifest.Sums (manifest : Manifest) (name : String) (anchor : Model)
    (measure : Measure) : Prop where
  shows : ∃ metric, manifest.metric? name = some metric ∧ metric.formula = .input measure.name
  anchor_eq : manifest.modelOfMeasure? measure.name = some anchor
  measure_eq : anchor.measure? measure.name = some measure
  sum : measure.aggregation = .sum

/-- What a plan for one sum selects adds up to the sum over the table. -/
theorem Manifest.Sums.total_eq {manifest : Manifest} {name : String} {anchor : Model}
    {measure : Measure} (h : manifest.Sums name anchor measure)
    (hplain : ∀ model ∈ manifest.models, model.Plain) {items : List GroupItem} {plan : Plan}
    (hplan : manifest.plan ⟨[name], items⟩ = .ok plan) {w : Warehouse}
    (hidentifies : manifest.Identifies w anchor items) :
    columnTotal name (plan.query.rows w) =
      ((w.rows anchor.table).map fun row => (measure.cell row).amount).sum := by
  simp only [Manifest.plan, bind_eq_ok] at hplan
  obtain ⟨resolved, hresolve, hplan⟩ := hplan
  have hsorted := Manifest.resolve_sorted hresolve
  obtain ⟨-, hmetrics, hmeasures, -⟩ := Manifest.resolve_eq_ok hresolve
  obtain ⟨metric, hmetric, hformula⟩ := h.shows
  have hresolved : resolved.metrics = [metric] := by
    obtain ⟨found, rest, hfound, hrest, heq⟩ := List.forall₂_cons_left_iff.mp hmetrics
    cases hmetric.symm.trans hfound
    rw [heq, List.forall₂_nil_left_iff.mp hrest]
  rw [hresolved, Manifest.resolveMeasures_input hformula h.anchor_eq h.measure_eq, h.sum]
    at hmeasures
  obtain ⟨hanchor, hterms⟩ := Prod.mk.inj (Except.ok.inj hmeasures)
  have hterm : ⟨measure.name, .sum⟩ ∈ resolved.measures := by
    rw [← hterms]
    exact List.mem_cons_self
  obtain ⟨primary, targets, joined, aggregated, s₁, s₂, s₃, s₄, s₅, hread, hreads, hjoin,
    haggregate, hcompute⟩ := Resolved.plan_eq_ok hplan
  have hmember := hsorted.measure_mem _ hterm
  have hname : measure.name ∈ primary.columnNames := by
    rw [(Model.read_columnNames hread).1]
    exact List.mem_map.mpr ⟨_, hmember, rfl⟩
  -- An entity or a dimension of the same name could not have been aggregated.
  have helement : resolved.anchor.element? measure.name = some (.measure measure) := by
    obtain ⟨source, hsource, hrole⟩ := Plan.aggregateBy_source haggregate hterm
    obtain ⟨element, helement, -, hshows⟩ := Model.read_shows hread hmember
    obtain ⟨column, hcolumn, hcolumnRole, -⟩ := Plan.joinTargets_shows_left hjoin hshows
    cases hsource.symm.trans hcolumn
    obtain ⟨found, hfound, hmeasure⟩ := Model.element?_of_measure? (hanchor ▸ h.measure_eq)
    cases helement.symm.trans hfound
    rw [hfound, hmeasure (hcolumnRole.symm.trans hrole)]
  have hmetricName : metric.name = name := by
    simpa using List.find?_some hmetric
  have hcompute : aggregated.computeMetrics [⟨name, .input measure.name⟩] s₄ =
      (.ok plan, s₅) := by
    rw [hresolved, List.map_singleton, hformula, hmetricName] at hcompute
    exact hcompute
  have hidentified := hsorted.identified hplain (hanchor ▸ hidentifies)
  calc
    _ = columnTotal measure.name (aggregated.query.rows w) := Plan.computeMetrics_total hcompute
    _ = columnTotal measure.name (joined.query.rows w) :=
        Plan.aggregateBy_total haggregate hterm
    _ = columnTotal measure.name (primary.query.rows w) :=
        Resolved.join_total hsorted hidentified hread hreads hjoin hname
    _ = _ := by
        have hmodel := hplain _ (List.mem_of_find?_eq_some h.anchor_eq)
        rw [hanchor] at hmodel ⊢
        exact Model.read_total hmodel hread hmember helement

/-- Slicing never changes a total: whatever a sum is grouped by, over whatever links, the
column of the metric adds up to the same, which is the sum of the measure over the table
of the anchor. -/
theorem Manifest.plan_total {manifest : Manifest}
    (hplain : ∀ model ∈ manifest.models, model.Plain) {name : String} {anchor : Model}
    {measure : Measure} (hsums : manifest.Sums name anchor measure)
    {items items' : List GroupItem} {plan plan' : Plan}
    (hplan : manifest.plan ⟨[name], items⟩ = .ok plan)
    (hplan' : manifest.plan ⟨[name], items'⟩ = .ok plan') {w : Warehouse}
    (hidentifies : manifest.Identifies w anchor items)
    (hidentifies' : manifest.Identifies w anchor items') :
    columnTotal name (plan.query.rows w) = columnTotal name (plan'.query.rows w) ∧
      columnTotal name (plan.query.rows w) =
        ((w.rows anchor.table).map fun row => (measure.cell row).amount).sum := by
  have htotal := hsums.total_eq hplain hplan hidentifies
  have htotal' := hsums.total_eq hplain hplan' hidentifies'
  exact ⟨htotal.trans htotal'.symm, htotal⟩

/-! ## Takings by country -/

namespace Sample

/-- The models of the bookings with a metric of one sum. -/
def takings : Manifest where
  models := manifest.models
  metrics := [.ofMeasure "takings" "amount"]

theorem takings_identifies : takings.Identifies warehouse bookings request.groupBy := by
  intro item hitem entity model hvia hmodel
  simp only [request, List.mem_cons, List.not_mem_nil, or_false] at hitem
  rcases hitem with rfl | rfl
  · cases hvia
  · cases hvia
    have hlistings : takings.linkedModel? "listing" "country" bookings.name = some listings := by
      rfl
    cases hlistings.symm.trans hmodel
    exact listings_identifies

theorem exists_takings_plan (items : List GroupItem)
    (h : (takings.plan ⟨["takings"], items⟩).toOption.isSome = true) :
    ∃ plan, takings.plan ⟨["takings"], items⟩ = .ok plan := by
  cases hplan : takings.plan ⟨["takings"], items⟩ with
  | error failure =>
      rw [hplan] at h
      cases h
  | ok plan => exact ⟨plan, rfl⟩

/-- One of the three bookings has no amount, and one no listing. -/
theorem takings_total :
    ∃ plan plan', takings.plan ⟨["takings"], request.groupBy⟩ = .ok plan ∧
      takings.plan ⟨["takings"], []⟩ = .ok plan' ∧
      columnTotal "takings" (plan.query.rows warehouse) =
        columnTotal "takings" (plan'.query.rows warehouse) ∧
      columnTotal "takings" (plan.query.rows warehouse) = 9 := by
  have hsums : takings.Sums "takings" bookings
      { name := "amount", aggregation := .sum, source := .column "Amount" } :=
    ⟨⟨_, rfl, rfl⟩, rfl, rfl, rfl⟩
  obtain ⟨plan, hplan⟩ := exists_takings_plan request.groupBy (by decide +kernel)
  obtain ⟨plan', hplan'⟩ := exists_takings_plan [] (by decide +kernel)
  have hplain : ∀ model ∈ takings.models, model.Plain := manifest_regular.plain
  have hnone : takings.Identifies warehouse bookings [] := by simp [Manifest.Identifies]
  obtain ⟨hsame, htotal⟩ :=
    Manifest.plan_total hplain hsums hplan hplan' takings_identifies hnone
  refine ⟨plan, plan', hplan, hplan', hsame, htotal.trans ?_⟩
  decide +kernel

end Sample

end MetricSql
