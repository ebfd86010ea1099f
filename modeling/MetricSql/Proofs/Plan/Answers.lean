import MetricSql.Proofs.Plan.Obstacle
import MetricSql.Proofs.Plan.Printable

/-!
# Compilation answers

A request is refused while it is planned, or because the dialect cannot say what it needs.  The only other way to
fail, a number that has no text, is never met: whatever doubles a manifest holds, compilation gives SQL or one of
these refusals.
-/

namespace MetricSql

/-- The computation fails, if at all, before anything is rendered. -/
def FailsInPlanning {α : Type} (x : Except Failure α) : Prop :=
  ∀ failure, x = .error failure → failure.stage ≠ .render

attribute [local simp] Failure.stage

section Combinators

variable {α β σ : Type}

@[simp]
theorem failsInPlanning_ok (a : α) : FailsInPlanning (.ok a) := nofun

@[simp]
theorem failsInPlanning_error {failure : Failure} :
    FailsInPlanning (.error failure : Except Failure α) ↔ failure.stage ≠ .render := by
  simp [FailsInPlanning]

theorem FailsInPlanning.bind
    {x : Except Failure α} {f : α → Except Failure β} (hx : FailsInPlanning x)
    (hf : ∀ a, FailsInPlanning (f a)) : FailsInPlanning (x >>= f) := by
  cases x with
  | ok a => exact hf a
  | error failure => exact failsInPlanning_error.mpr (failsInPlanning_error.mp hx)

theorem failsInPlanning_mapM
    {f : α → Except Failure β} (hf : ∀ a, FailsInPlanning (f a)) (xs : List α) :
    FailsInPlanning (xs.mapM f) := by
  intro failure h
  obtain ⟨x, -, hx⟩ := mapM_eq_error h
  exact hf x failure hx

theorem failsInPlanning_foldlM
    {f : σ → α → Except Failure σ} (hf : ∀ s a, FailsInPlanning (f s a)) (xs : List α)
    (s : σ) : FailsInPlanning (xs.foldlM f s) := by
  induction xs generalizing s with
  | nil => exact failsInPlanning_ok s
  | cons x rest ih =>
      rw [List.foldlM_cons]
      exact (hf s x).bind ih

/-- A planner returns the supply of aliases next to its answer. -/
theorem FailsInPlanning.stage_ne
    {answer : Except Failure α × σ} {failure : Failure} {s : σ}
    (h : FailsInPlanning answer.1) (hanswer : answer = (.error failure, s)) :
    failure.stage ≠ .render := by
  rw [hanswer] at h
  exact failsInPlanning_error.mp h

end Combinators

/-! ## Resolution -/

theorem Manifest.resolveMetric_fails (manifest : Manifest) (name : String) :
    FailsInPlanning (manifest.resolveMetric name) := by
  unfold resolveMetric
  split <;> simp

theorem MeasureSet.addInput_fails
    (manifest : Manifest) (metric : Metric) (set : MeasureSet) (input : String) :
    FailsInPlanning (set.addInput manifest metric input) := by
  unfold addInput
  split
  next => simp
  next =>
    split
    next => simp [unresolved]
    next =>
      unfold insert
      split
      next =>
        split <;> simp
      next => simp

theorem Manifest.resolveMeasures_fails (manifest : Manifest) (metrics : List Metric) :
    FailsInPlanning (manifest.resolveMeasures metrics) := by
  unfold resolveMeasures
  apply FailsInPlanning.bind
  · apply failsInPlanning_foldlM
    intro set metric
    exact failsInPlanning_foldlM (MeasureSet.addInput_fails manifest metric) _ _
  · intro set
    split
    next => exact failsInPlanning_ok _
    next => exact failsInPlanning_error.mpr (by simp)

theorem Grouping.addItem_fails
    (manifest : Manifest) (anchor : Model) (grouping : Grouping) (item : GroupItem) :
    FailsInPlanning (grouping.addItem manifest anchor item) := by
  unfold addItem
  split
  next =>
    apply FailsInPlanning.bind
    · unfold Manifest.resolveLocal
      split <;> simp
    · exact fun _ => failsInPlanning_ok _
  next =>
    apply FailsInPlanning.bind
    · unfold Manifest.resolveLinked
      split
      next => simp
      next =>
        split <;> simp
    · exact fun _ => failsInPlanning_ok _

theorem LinkedRead.addWindows_fails (anchor : Model) (reads : List LinkedRead) :
    FailsInPlanning (addWindows anchor reads) := by
  intro failure h
  obtain ⟨read, -, -, -, rfl⟩ := addWindows_eq_error h
  simp

theorem GroupKeys.ofNames_fails (names : List String) :
    FailsInPlanning (GroupKeys.ofNames names) := by
  intro failure h
  obtain ⟨⟨name, rfl⟩, -⟩ := GroupKeys.ofNames_eq_error h
  simp

theorem Manifest.resolve_fails (manifest : Manifest) (request : Request) :
    FailsInPlanning (manifest.resolve request) := by
  unfold resolve
  split
  next => exact failsInPlanning_error.mpr (by simp)
  next =>
    refine (failsInPlanning_mapM manifest.resolveMetric_fails _).bind fun metrics => ?_
    refine (manifest.resolveMeasures_fails metrics).bind fun found => ?_
    refine (failsInPlanning_foldlM (Grouping.addItem_fails manifest found.1) _ _).bind
      fun grouping => ?_
    refine (LinkedRead.addWindows_fails found.1 grouping.linked).bind fun widened => ?_
    exact (GroupKeys.ofNames_fails _).bind fun _ => failsInPlanning_ok _

/-! ## Planners -/

theorem ensureUnique_fails
    {stage : Stage} (hstage : stage ≠ .render) (columns : List Column) :
    FailsInPlanning (ensureUnique stage columns) := by
  intro failure h
  obtain ⟨⟨name, rfl⟩, -⟩ := ensureUnique_eq_error h
  exact hstage

theorem Model.bindElement_fails (model : Model) (tableAlias : String) (ref : ElementRef) :
    FailsInPlanning (model.bindElement tableAlias ref) := by
  unfold bindElement
  split
  next => simp [unresolved]
  next =>
    apply FailsInPlanning.bind
    · intro failure h
      obtain ⟨grain, reason, rfl⟩ := checkGrain?_eq_error h
      simp
    · exact fun _ => failsInPlanning_ok _

theorem Model.read_fails (model : Model) (elements : List ElementRef) (supply : AliasSupply) :
    FailsInPlanning (model.read elements supply).1 := by
  have hbind : ∀ tableAlias, FailsInPlanning (model.bindAll tableAlias elements) := by
    intro tableAlias
    refine (failsInPlanning_mapM (model.bindElement_fails tableAlias) _).bind fun columns => ?_
    exact (ensureUnique_fails (by simp) columns).bind fun _ => failsInPlanning_ok _
  unfold read
  split
  next => simp
  next =>
    simp only
    split
    next failure hfailure => exact failsInPlanning_error.mpr (hbind _ failure hfailure)
    next => simp

theorem LinkedRead.readAll_fails
    (time : Option String) (reads : List LinkedRead) (supply : AliasSupply) :
    FailsInPlanning (readAll time reads supply) := by
  intro failure h
  obtain ⟨read, -, before, after, hread⟩ := readAll_eq_error h
  exact (read.model.read_fails read.elements before).stage_ne hread

namespace JoinTarget

theorem matchKey_fails
    (primary : String) (left : List LeftColumn) (target : JoinTarget) (key : String) :
    FailsInPlanning (target.matchKey primary left key) := by
  unfold matchKey
  split
  next => simp
  next =>
    split
    next => simp
    next =>
      split
      next =>
        split <;> simp
      next => simp

theorem requireColumn_fails (target : JoinTarget) (name : String) :
    FailsInPlanning (target.requireColumn name) := by
  unfold requireColumn
  split <;> simp

theorem matchWindow_fails (primary : String) (left : List LeftColumn) (target : JoinTarget) :
    FailsInPlanning (target.matchWindow primary left) := by
  unfold matchWindow
  split
  next => simp
  next =>
    split
    next => simp
    next =>
      refine (target.requireColumn_fails _).bind fun _ => ?_
      exact (target.requireColumn_fails _).bind fun _ => failsInPlanning_ok _

theorem attach_fails (primary : String) (left : List LeftColumn) (target : JoinTarget) :
    FailsInPlanning (target.attach primary left) := by
  unfold attach
  split
  next => exact failsInPlanning_error.mpr (by simp)
  next =>
    refine (failsInPlanning_mapM (target.matchKey_fails primary left) _).bind fun keys => ?_
    refine (target.matchWindow_fails primary left).bind fun window => ?_
    apply FailsInPlanning.bind
    · intro failure h
      obtain ⟨⟨name, rfl⟩, -⟩ := contribute_eq_error h
      simp
    · exact fun _ => failsInPlanning_ok _

theorem attachAll_fails (primary : String) (left : List LeftColumn) (targets : List JoinTarget) :
    FailsInPlanning (attachAll primary left targets) := by
  induction targets generalizing left with
  | nil => exact failsInPlanning_ok _
  | cons target rest ih =>
      rw [attachAll]
      refine (target.attach_fails primary left).bind fun first => ?_
      exact (ih first.1).bind fun _ => failsInPlanning_ok _

end JoinTarget

namespace Plan

theorem joinTargets_fails (primary : Plan) (targets : List JoinTarget) (supply : AliasSupply) :
    FailsInPlanning (primary.joinTargets targets supply).1 := by
  have hparts : FailsInPlanning (primary.joinParts targets) := by
    refine (JoinTarget.attachAll_fails _ _ _).bind fun left => ?_
    exact (ensureUnique_fails (by simp) _).bind fun _ => failsInPlanning_ok _
  unfold joinTargets
  split
  next => simp
  next =>
    split
    next failure hfailure => exact failsInPlanning_error.mpr (hparts failure hfailure)
    next => simp

theorem keyColumn_fails (input : Plan) (key : String) :
    FailsInPlanning (input.keyColumn key) := by
  have hmissing : (input.missingKey key).stage ≠ .render := by
    unfold missingKey
    split
    next =>
      simp only
      split <;> simp
    next => simp
  unfold keyColumn
  split
  next =>
    split
    next => simp
    next => exact failsInPlanning_error.mpr hmissing
  next => exact failsInPlanning_error.mpr hmissing

theorem measureColumn_fails (input : Plan) (term : MeasureTerm) :
    FailsInPlanning (input.measureColumn term) := by
  unfold measureColumn
  split
  next =>
    apply FailsInPlanning.bind
    · intro failure h
      obtain ⟨fraction, -, -, -, -, rfl⟩ := MeasureTerm.expr_eq_error h
      simp
    · exact fun _ => failsInPlanning_ok _
  next => simp

theorem aggregateBy_fails
    (input : Plan) (keys : GroupKeys) (measures : List MeasureTerm) (supply : AliasSupply) :
    FailsInPlanning (input.aggregateBy keys measures supply).1 := by
  have hcolumns : FailsInPlanning (input.aggregateColumns keys measures) := by
    unfold aggregateColumns
    split
    next => exact failsInPlanning_error.mpr (by simp)
    next =>
      refine (failsInPlanning_mapM input.keyColumn_fails _).bind fun keyColumns => ?_
      refine (failsInPlanning_mapM input.measureColumn_fails _).bind fun measureColumns => ?_
      exact (ensureUnique_fails (by simp) _).bind fun _ => failsInPlanning_ok _
  unfold aggregateBy
  split
  next failure hfailure => exact failsInPlanning_error.mpr (hcolumns failure hfailure)
  next => simp

end Plan

theorem Formula.compile_fails (input : Plan) (metric : String) (formula : Formula) :
    FailsInPlanning (formula.compile input metric) := by
  induction formula with
  | input name =>
      simp only [compile]
      split <;> simp
  | literal value =>
      simp only [compile]
      split <;> simp
  | neg operand ih => exact ih.bind fun _ => failsInPlanning_ok _
  | binary operator left right ihleft ihright =>
      exact ihleft.bind fun _ => ihright.bind fun _ => failsInPlanning_ok _
  | ratio numerator denominator ihnum ihden =>
      exact ihnum.bind fun _ => ihden.bind fun _ => failsInPlanning_ok _

theorem Plan.computeMetrics_fails
    (input : Plan) (terms : List MetricTerm) (supply : AliasSupply) :
    FailsInPlanning (input.computeMetrics terms supply).1 := by
  have hparts : FailsInPlanning (input.metricParts terms) := by
    unfold metricParts
    split
    next => simp
    next =>
      split
      next => exact failsInPlanning_error.mpr (by simp)
      next =>
        have hmetric : ∀ term, FailsInPlanning (input.metricColumn term) := fun term =>
          (Formula.compile_fails input term.name term.formula).bind fun _ =>
            failsInPlanning_ok _
        refine (failsInPlanning_mapM hmetric _).bind fun metricColumns => ?_
        exact (ensureUnique_fails (by simp) _).bind fun _ => failsInPlanning_ok _
  unfold computeMetrics
  split
  next failure hfailure => exact failsInPlanning_error.mpr (hparts failure hfailure)
  next => simp

theorem Resolved.plan_fails (resolved : Resolved) : FailsInPlanning resolved.plan := by
  unfold plan
  split
  next failure supply hread =>
    exact failsInPlanning_error.mpr ((resolved.anchor.read_fails _ _).stage_ne hread)
  next primary supply hread =>
    apply (LinkedRead.readAll_fails _ _ _).bind
    rintro ⟨targets, supply⟩
    simp only
    split
    next failure supply hjoin =>
      exact failsInPlanning_error.mpr ((primary.joinTargets_fails _ _).stage_ne hjoin)
    next joined supply hjoin =>
      split
      next failure supply haggregate =>
        exact failsInPlanning_error.mpr ((joined.aggregateBy_fails _ _ _).stage_ne haggregate)
      next aggregated supply haggregate => exact aggregated.computeMetrics_fails _ _

theorem Manifest.plan_fails (manifest : Manifest) (request : Request) :
    FailsInPlanning (manifest.plan request) :=
  (manifest.resolve_fails request).bind Resolved.plan_fails

/-! ## Rendering -/

theorem forM_eq_error
    {ε α : Type} {f : α → Except ε Unit} {xs : List α} {e : ε}
    (h : xs.forM f = .error e) : ∃ x ∈ xs, f x = .error e := by
  induction xs with
  | nil => cases h
  | cons x rest ih =>
      have hcons : (x :: rest).forM f = (f x >>= fun _ => rest.forM f) := rfl
      rw [hcons, bind_eq_error] at h
      rcases h with hx | ⟨-, -, hrest⟩
      · exact ⟨x, List.mem_cons_self, hx⟩
      · obtain ⟨y, hy, herror⟩ := ih hrest
        exact ⟨y, List.mem_cons_of_mem _ hy, herror⟩

/-- Where the text exists, rendering is refused for what the dialect lacks and for nothing else. -/
theorem Profile.render_eq_error
    {profile : Profile} {plan : Plan} {failure : Failure} {sql : String}
    (htext : plan.query.text profile = .ok sql) (h : profile.render plan = .error failure) :
    ∃ feature, failure = .unsupportedFeature profile.dialect feature := by
  simp only [render, bind_eq_error, htext] at h
  rcases h with hvalidate | ⟨-, -, hcheck | ⟨-, -, ⟨⟩⟩⟩
  · unfold validate at hvalidate
    split at hvalidate
    next =>
      cases hvalidate
      exact ⟨_, rfl⟩
    next => cases hvalidate
  · obtain ⟨e, -, he⟩ := forM_eq_error hcheck
    unfold check at he
    split at he
    next =>
      cases he
      exact ⟨_, rfl⟩
    next => cases he

theorem Session.exists_text
    {calls : List PlannerCall} {plan : Plan} (h : plan ∈ (run calls).nodes)
    (profile : Profile) : ∃ sql, plan.query.text profile = .ok sql :=
  ((run_planned calls plan h).printable_tokens profile).exists_text

/-- Compilation of a request gives SQL or refuses it.  More generally, in every plan that planners have built,
however often they use a node, all number literals are finite, so that the plan has a text, and no aggregation
has more keys than columns. -/
theorem Manifest.compile_answers :
    (∀ (manifest : Manifest) (request : Request) (profile : Profile) (cause : Unprintable),
      manifest.compile request { profile, validateOutput := false } ≠
        .error (.unprintable cause)) ∧
    ∀ (calls : List PlannerCall), ∀ plan ∈ (Session.run calls).nodes,
      (∀ profile : Profile,
        (∀ value, Token.float value ∈ plan.query.tokens profile →
          Decimal.isFinite value = true) ∧
        ∃ sql, plan.query.text profile = .ok sql) ∧
      ∀ aliasName input keys measures columns,
        Plan.aggregate aliasName input keys measures columns ∈ plan.stages →
          keys.names.length ≤ columns.length := by
  constructor
  · intro manifest request profile cause hcompile
    rcases bind_eq_error.mp hcompile with hplan | ⟨plan, hplan, hcompile⟩
    · exact manifest.plan_fails request _ hplan rfl
    · obtain ⟨calls, hmem⟩ := Manifest.plan_mem_nodes hplan
      obtain ⟨sql, hsql⟩ := Session.exists_text hmem profile
      rcases bind_eq_error.mp hcompile with hrender | ⟨text, -, ⟨⟩⟩
      obtain ⟨feature, ⟨⟩⟩ := Profile.render_eq_error hsql hrender
  · intro calls plan hplan
    refine ⟨fun profile => ⟨?_, Session.exists_text hplan profile⟩, ?_⟩
    · exact fun value => (Session.run_planned calls plan hplan).printable_tokens profile _
    · intro aliasName input keys measures columns hstage
      exact (Session.run_wellFormed calls plan hplan _ hstage).length_keys_le

namespace Sample

/-- A median, and a metric over it with a literal of its own. -/
def medianCalls : List PlannerCall := [
  .read bookings [⟨"listing", none⟩, ⟨"amount", none⟩],
  .aggregate 0 ⟨["listing"], by decide⟩ [⟨"amount", .percentile 0.5 false false⟩],
  .metrics 1 [⟨"above", .binary .sub (.input "amount") (.literal 1.5)⟩]]

/-- The literal of the metric is not a number. -/
def lostManifest : Manifest :=
  { manifest with
    metrics := [
      { name := "half", formula := .binary .mul (.input "amount") (.literal (0.0 / 0.0)) }] }

theorem median_answers :
    (∃ plan ∈ (Session.run medianCalls).nodes, plan.columnNames = ["listing", "above"] ∧
      ∀ profile : Profile, ∃ sql, plan.query.text profile = .ok sql) ∧
    ∀ profile cause,
      lostManifest.compile request { profile, validateOutput := false } ≠
        .error (.unprintable cause) := by
  have hlast : ∃ plan ∈ (Session.run medianCalls).nodes,
      plan.columnNames = ["listing", "above"] := by
    decide +kernel
  obtain ⟨plan, hplan, hnames⟩ := hlast
  refine ⟨⟨plan, hplan, hnames, fun profile => ?_⟩, ?_⟩
  · exact ((Manifest.compile_answers.2 medianCalls plan hplan).1 profile).2
  · exact Manifest.compile_answers.1 lostManifest request

end Sample

end MetricSql
