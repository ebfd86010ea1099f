import MetricSql.Proofs.Plan.Built
import MetricSql.Proofs.Plan.Session
import MetricSql.Proofs.Plan.Stages

/-!
# The planner calls of a request

The plan of a request is built by planner calls like any other node: read the anchor, read the linked models,
join, aggregate, compute the metrics.  So what holds of every node of every session holds of the plan of every
request.
-/

namespace MetricSql

namespace Session

/-- Some calls lead to the session. -/
def Reachable (session : Session) : Prop := ∃ calls, run calls = session

theorem reachable_initial : Reachable {} := ⟨[], rfl⟩

theorem Reachable.step
    {session : Session} (h : session.Reachable) (call : PlannerCall) {node : Plan}
    {supply : AliasSupply} (hanswer : session.answer? call = some (.ok node, supply)) :
    Reachable ⟨supply, session.nodes ++ [node]⟩ := by
  obtain ⟨calls, rfl⟩ := h
  refine ⟨calls ++ [call], ?_⟩
  rw [run, List.foldl_append, ← run]
  simp only [List.foldl_cons, List.foldl_nil, Session.step, hanswer]

/-- A read adds one node and takes nothing from the session but aliases. -/
theorem Reachable.read
    {supply supply' : AliasSupply} {nodes : List Plan} (h : Reachable ⟨supply, nodes⟩)
    {model : Model} {elements : List ElementRef} {node : Plan}
    (hread : model.read elements supply = (.ok node, supply')) :
    Reachable ⟨supply', nodes ++ [node]⟩ := by
  apply h.step (.read model elements)
  rw [answer?, hread]

theorem Reachable.readAll
    {time : Option String} {reads : List LinkedRead} {supply supply' : AliasSupply}
    {nodes : List Plan} {targets : List JoinTarget} (h : Reachable ⟨supply, nodes⟩)
    (hreads : LinkedRead.readAll time reads supply = .ok (targets, supply')) :
    Reachable ⟨supply', nodes ++ targets.map (·.node)⟩ := by
  induction reads generalizing supply nodes targets with
  | nil =>
      cases hreads
      simpa using h
  | cons read rest ih =>
      rw [LinkedRead.readAll] at hreads
      split at hreads
      next => cases hreads
      next node middle hread =>
        simp only [bind_eq_ok] at hreads
        obtain ⟨⟨others, last⟩, hrest, ⟨⟩⟩ := hreads
        have hnext := ih (h.read hread) hrest
        simpa [LinkedRead.target] using hnext

/-- Targets on nodes of the session can be named by the places of the nodes. -/
theorem exists_targetCalls
    {nodes : List Plan} {targets : List JoinTarget}
    (h : ∀ target ∈ targets, target.node ∈ nodes) :
    ∃ calls : List TargetCall, calls.mapM (TargetCall.target? nodes) = some targets := by
  induction targets with
  | nil => exact ⟨[], rfl⟩
  | cons target rest ih =>
      obtain ⟨calls, hcalls⟩ := ih fun other hother =>
        h other (List.mem_cons_of_mem _ hother)
      obtain ⟨place, hplace⟩ := List.mem_iff_getElem?.mp (h target List.mem_cons_self)
      let first : TargetCall :=
        ⟨place, target.keys, target.role, target.qualifier, target.window⟩
      have hfirst : first.target? nodes = some target := by
        simp [first, TargetCall.target?, hplace]
      refine ⟨first :: calls, ?_⟩
      rw [List.mapM_cons, hfirst, hcalls]
      rfl

theorem Reachable.join
    {supply supply' : AliasSupply} {nodes : List Plan} (h : Reachable ⟨supply, nodes⟩)
    {primary node : Plan} {targets : List JoinTarget} (hprimary : primary ∈ nodes)
    (htargets : ∀ target ∈ targets, target.node ∈ nodes)
    (hjoin : primary.joinTargets targets supply = (.ok node, supply')) :
    Reachable ⟨supply', nodes ++ [node]⟩ := by
  obtain ⟨place, hplace⟩ := List.mem_iff_getElem?.mp hprimary
  obtain ⟨calls, hcalls⟩ := exists_targetCalls htargets
  apply h.step (.join place calls)
  simp [answer?, hplace, hcalls, hjoin]

theorem Reachable.aggregate
    {supply supply' : AliasSupply} {nodes : List Plan} (h : Reachable ⟨supply, nodes⟩)
    {input node : Plan} {keys : GroupKeys} {measures : List MeasureTerm}
    (hinput : input ∈ nodes)
    (haggregate : input.aggregateBy keys measures supply = (.ok node, supply')) :
    Reachable ⟨supply', nodes ++ [node]⟩ := by
  obtain ⟨place, hplace⟩ := List.mem_iff_getElem?.mp hinput
  apply h.step (.aggregate place keys measures)
  simp [answer?, hplace, haggregate]

theorem Reachable.metrics
    {supply supply' : AliasSupply} {nodes : List Plan} (h : Reachable ⟨supply, nodes⟩)
    {input node : Plan} {terms : List MetricTerm} (hinput : input ∈ nodes)
    (hmetrics : input.computeMetrics terms supply = (.ok node, supply')) :
    Reachable ⟨supply', nodes ++ [node]⟩ := by
  obtain ⟨place, hplace⟩ := List.mem_iff_getElem?.mp hinput
  apply h.step (.metrics place terms)
  simp [answer?, hplace, hmetrics]

end Session

/-- The plan of a request is a node of some session. -/
theorem Manifest.plan_mem_nodes
    {manifest : Manifest} {request : Request} {plan : Plan}
    (h : manifest.plan request = .ok plan) :
    ∃ calls, plan ∈ (Session.run calls).nodes := by
  rw [Manifest.plan, bind_eq_ok] at h
  obtain ⟨resolved, -, hstages⟩ := h
  obtain ⟨primary, targets, joined, aggregated, s₁, s₂, s₃, s₄, s₅, hread, hreads, hjoin,
    haggregate, hmetrics⟩ := Resolved.plan_eq_ok hstages
  have htargets : ∀ target ∈ targets, target.node ∈ [primary] ++ targets.map (·.node) :=
    fun target htarget => List.mem_append_right _ (List.mem_map_of_mem htarget)
  have hreadAll := (Session.reachable_initial.read hread).readAll hreads
  have hjoined := hreadAll.join (by simp) htargets hjoin
  obtain ⟨calls, hcalls⟩ := (hjoined.aggregate (by simp) haggregate).metrics (by simp) hmetrics
  exact ⟨calls, by simp [hcalls]⟩

/-! ## The expressions of planned columns -/

/-- What the planners give to a column: a column of the stage below, an element of a model, an aggregate or a
formula. -/
inductive Expr.Planned : Expr → Prop
  | taken (aliasName name : String) : Planned (.of aliasName name)
  | element (tableAlias : String) (ref : ElementRef) (element : Element) :
      Planned (Model.elementColumn tableAlias ref element).expr
  | measure {term : MeasureTerm} {aliasName name : String} {e : Expr}
      (h : term.expr (.of aliasName name) = .ok e) : Planned e
  | metric {input : Plan} {metric : String} {formula : Formula} {e : Expr}
      {dataType : Option DataType} (h : formula.compile input metric = .ok (e, dataType)) :
      Planned e

/-- The expressions of all columns are planned. -/
def Plan.Planned (plan : Plan) : Prop :=
  ∀ stage ∈ plan.stages, ∀ column ∈ stage.columns, column.expr.Planned

theorem Plan.planned_iff {plan : Plan} :
    plan.Planned ↔
      (∀ column ∈ plan.columns, column.expr.Planned) ∧ ∀ child ∈ plan.children, child.Planned :=
  forall_stages_iff

theorem Model.read_planned
    {model : Model} {elements : List ElementRef} {supply supply' : AliasSupply} {node : Plan}
    (h : model.read elements supply = (.ok node, supply')) : node.Planned := by
  obtain ⟨-, columns, hbind, rfl, -⟩ := Model.read_eq_ok.mp h
  obtain ⟨hbind, -⟩ := Model.bindAll_eq_ok.mp hbind
  rw [Plan.planned_iff]
  refine ⟨?_, by simp [Plan.children]⟩
  intro column hcolumn
  obtain ⟨ref, -, hbound⟩ := forall₂_exists_left hbind hcolumn
  obtain ⟨element, -, -, rfl⟩ := Model.bindElement_eq_ok.mp hbound
  exact .element _ _ _

namespace Plan

theorem joinTargets_planned
    {primary node : Plan} {targets : List JoinTarget} {supply supply' : AliasSupply}
    (hprimary : primary.Planned) (htargets : ∀ target ∈ targets, target.node.Planned)
    (h : primary.joinTargets targets supply = (.ok node, supply')) : node.Planned := by
  rcases joinTargets_eq_ok h with ⟨-, rfl, -⟩ | ⟨joined, -, hattach, -, rfl, -⟩
  · exact hprimary
  · rw [planned_iff]
    constructor
    · intro column hcolumn
      obtain ⟨left, -, rfl⟩ := List.mem_map.mp hcolumn
      exact .taken _ _
    · exact JoinTarget.attachAll_forall_children hattach hprimary htargets

theorem aggregateBy_planned
    {input node : Plan} {keys : GroupKeys} {measures : List MeasureTerm}
    {supply supply' : AliasSupply} (hinput : input.Planned)
    (h : input.aggregateBy keys measures supply = (.ok node, supply')) : node.Planned := by
  obtain ⟨columns, hcolumns, rfl, -⟩ := aggregateBy_eq_ok h
  obtain ⟨-, keyColumns, measureColumns, hkeys, hmeasures, rfl, -⟩ :=
    aggregateColumns_eq_ok hcolumns
  rw [planned_iff]
  refine ⟨?_, by simpa [children] using hinput⟩
  intro column hcolumn
  rcases List.mem_append.mp hcolumn with hcolumn | hcolumn
  · obtain ⟨key, -, hkey⟩ := forall₂_exists_left hkeys hcolumn
    obtain ⟨source, -, -, rfl⟩ := keyColumn_eq_ok hkey
    exact .taken _ _
  · obtain ⟨term, -, hterm⟩ := forall₂_exists_left hmeasures hcolumn
    obtain ⟨source, e, -, -, hexpr, rfl⟩ := measureColumn_eq_ok hterm
    exact .measure hexpr

theorem computeMetrics_planned
    {input node : Plan} {terms : List MetricTerm} {supply supply' : AliasSupply}
    (hinput : input.Planned)
    (h : input.computeMetrics terms supply = (.ok node, supply')) : node.Planned := by
  obtain ⟨keys, columns, hparts, rfl, -⟩ := computeMetrics_eq_ok h
  obtain ⟨-, -, metricColumns, hmetrics, rfl, -⟩ := metricParts_eq_ok hparts
  rw [planned_iff]
  refine ⟨?_, by simpa [children] using hinput⟩
  intro column hcolumn
  rcases List.mem_append.mp hcolumn with hcolumn | hcolumn
  · obtain ⟨source, -, rfl⟩ := List.mem_map.mp hcolumn
    exact .taken _ _
  · obtain ⟨term, -, hterm⟩ := forall₂_exists_left hmetrics hcolumn
    obtain ⟨e, dataType, hcompile, rfl⟩ := metricColumn_eq_ok hterm
    exact .metric hcompile

end Plan

theorem Session.run_planned (calls : List PlannerCall) :
    ∀ node ∈ (run calls).nodes, node.Planned :=
  run_induction Model.read_planned Plan.joinTargets_planned Plan.aggregateBy_planned
    Plan.computeMetrics_planned calls

end MetricSql
