import MetricSql.Proofs.Plan.Session
import MetricSql.Proofs.Plan.Stages
import MetricSql.Proofs.Statement.Expression

/-!
# What planners build

Every stage has columns, its expressions are spelled so that they can be read back
unless they are taken from a model as they stand, and an aggregation groups by
columns of its input.
-/

namespace MetricSql

/-! ## Expressions -/

namespace Expr

def isRaw : Expr → Bool
  | raw _ => true
  | _ => false

/-- All parts can be written and read back, except for what is taken from a model. -/
def Spelled (e : Expr) : Prop :=
  ∀ part ∈ e.parts, part.isRaw = false → part.isWritten = true ∧ part.isReadable = true

theorem spelled_cons {e : Expr} {inner : List Expr} (hparts : e.parts = e :: inner)
    (hwritten : e.isWritten = true) (hreadable : e.isReadable = true)
    (hinner : ∀ part ∈ inner, part.isRaw = false →
      part.isWritten = true ∧ part.isReadable = true) : e.Spelled := by
  intro part hpart
  rw [hparts, List.mem_cons] at hpart
  rcases hpart with rfl | hpart
  · exact fun _ => ⟨hwritten, hreadable⟩
  · exact hinner part hpart

theorem spelled_of (table name : String) : (Expr.of table name).Spelled := by
  simp [Spelled, Expr.of, parts, isWritten, isReadable]

theorem spelled_physical (tableAlias expression : String) :
    (physical tableAlias expression).Spelled := by
  unfold physical
  split
  next => exact spelled_of _ _
  next => simp [Spelled, parts, isRaw]

/-- An operand is a division only in parentheses. -/
theorem isWritten_neg_asOperand (e : Expr) : (neg e.asOperand).isWritten = true := by
  unfold asOperand
  split
  next => rfl
  next hcompound =>
    cases e <;> simp_all [isWritten, leadsWithMinus, startsWithMinus, isCompound]

theorem Spelled.asOperand {e : Expr} (h : e.Spelled) : e.asOperand.Spelled := by
  unfold Expr.asOperand
  split
  next => exact spelled_cons rfl rfl rfl h
  next => exact h

theorem Spelled.castFloat {e : Expr} (h : e.Spelled) : (castFloat e).Spelled :=
  spelled_cons rfl rfl rfl h

theorem Spelled.binary {left right : Expr} (hleft : left.Spelled) (hright : right.Spelled)
    (op : BinaryOp) : (binary op left right).Spelled :=
  spelled_cons rfl rfl rfl (List.forall_mem_append.mpr ⟨hleft, hright⟩)

theorem Spelled.safeDivide {left right : Expr} (hleft : left.Spelled)
    (hright : right.Spelled) : (safeDivide left right).Spelled :=
  spelled_cons rfl rfl rfl (List.forall_mem_append.mpr ⟨hleft, hright⟩)

end Expr

theorem MeasureTerm.spelled_expr {term : MeasureTerm} {aliasName name : String} {e : Expr}
    (h : term.expr (.of aliasName name) = .ok e) : e.Spelled := by
  have hfunctions : ∀ function ∈ ["SUM", "COUNT", "MIN", "MAX", "AVG"],
      Text.isPlain (Text.upper function) = true ∧
        Statement.isCallable (Text.upper function) = true := by
    decide +kernel
  unfold MeasureTerm.expr at h
  split at h
  case h_8 =>
    split at h
    next =>
      cases h
      simp [Expr.Spelled, Expr.of, Expr.parts, Expr.isWritten, Expr.isReadable]
    next => cases h
  all_goals
    cases h
    simp [Expr.Spelled, Expr.sum, Expr.count, Expr.min, Expr.max, Expr.countDistinct,
      Expr.avg, Expr.indicator, Expr.of, Expr.parts, Expr.argParts, Expr.branchParts,
      Expr.otherwiseParts, Expr.isWritten, Expr.isReadable, hfunctions]

theorem Operator.spelled_apply {operator : Operator} {left right : Expr}
    (hleft : left.Spelled) (hright : right.Spelled) : (operator.apply left right).Spelled := by
  cases operator with
  | add => exact hleft.asOperand.binary hright.asOperand _
  | sub => exact hleft.asOperand.binary hright.asOperand _
  | mul => exact hleft.asOperand.binary hright.asOperand _
  | div => exact hleft.safeDivide hright

theorem Formula.spelled_compile {input : Plan} {metric : String} {formula : Formula}
    {e : Expr} {dataType : Option DataType}
    (h : formula.compile input metric = .ok (e, dataType)) : e.Spelled := by
  induction formula generalizing e dataType with
  | input name =>
      simp only [Formula.compile] at h
      split at h
      next =>
        cases h
        exact Expr.spelled_of _ _
      next => cases h
  | literal value =>
      simp only [Formula.compile] at h
      split at h
      next =>
        cases h
        simp [Expr.Spelled, Expr.parts, Expr.isWritten, Expr.isReadable]
      next => cases h
  | neg operand ih =>
      simp only [Formula.compile, bind_eq_ok] at h
      obtain ⟨⟨inner, innerType⟩, hinner, ⟨⟩⟩ := h
      exact Expr.spelled_cons rfl (Expr.isWritten_neg_asOperand inner) rfl
        (ih hinner).asOperand
  | binary operator left right ihleft ihright =>
      simp only [Formula.compile, bind_eq_ok] at h
      obtain ⟨⟨l, leftType⟩, hleft, ⟨r, rightType⟩, hright, ⟨⟩⟩ := h
      exact Operator.spelled_apply (ihleft hleft) (ihright hright)
  | ratio numerator denominator ihnum ihden =>
      simp only [Formula.compile, bind_eq_ok] at h
      obtain ⟨⟨num, numType⟩, hnum, ⟨den, denType⟩, hden, ⟨⟩⟩ := h
      exact (ihnum hnum).castFloat.safeDivide (ihden hden).castFloat

theorem Model.spelled_elementColumn (tableAlias : String) (ref : ElementRef)
    (element : Element) : (elementColumn tableAlias ref element).expr.Spelled := by
  cases element with
  | entity entity => exact Expr.spelled_physical _ _
  | dimension dimension =>
      simp only [elementColumn]
      split
      next => exact Expr.spelled_cons rfl rfl rfl (Expr.spelled_physical _ _)
      next => exact Expr.spelled_physical _ _
  | measure measure =>
      simp only [elementColumn]
      split
      next => exact Expr.spelled_physical _ _
      next => simp [Expr.Spelled, Expr.parts, Expr.isWritten, Expr.isReadable]

/-! ## Stages -/

namespace Plan

/-- The names that a stage groups by. -/
def groupNames : Plan → List String
  | aggregate _ _ keys _ _ => keys.names
  | _ => []

/-- A stage as the planners build it. -/
structure Formed (stage : Plan) : Prop where
  columns_ne_nil : stage.columns ≠ []
  spelled : ∀ column ∈ stage.columns, column.expr.Spelled
  grouped : ∃ aliasName, stage.groupExprs = stage.groupNames.map (Expr.of aliasName)

/-- All stages of the plan are formed. -/
def WellFormed (plan : Plan) : Prop := ∀ stage ∈ plan.stages, stage.Formed

theorem wellFormed_iff {plan : Plan} :
    plan.WellFormed ↔ plan.Formed ∧ ∀ child ∈ plan.children, child.WellFormed :=
  forall_stages_iff

end Plan

theorem Model.read_wellFormed {model : Model} {elements : List ElementRef}
    {supply supply' : AliasSupply} {node : Plan}
    (h : model.read elements supply = (.ok node, supply')) : node.WellFormed := by
  obtain ⟨hne, columns, hbind, rfl, -⟩ := Model.read_eq_ok.mp h
  obtain ⟨hbind, -⟩ := Model.bindAll_eq_ok.mp hbind
  refine Plan.wellFormed_iff.mpr ⟨⟨?_, ?_, "", rfl⟩, by simp [Plan.children]⟩
  · rintro rfl
    cases hbind
    exact hne rfl
  · intro column hcolumn
    obtain ⟨ref, -, hbound⟩ := forall₂_exists_left hbind hcolumn
    obtain ⟨element, -, -, rfl⟩ := Model.bindElement_eq_ok.mp hbound
    exact spelled_elementColumn _ _ _

namespace Plan

theorem joinTargets_wellFormed {primary node : Plan} {targets : List JoinTarget}
    {supply supply' : AliasSupply} (hprimary : primary.WellFormed)
    (htargets : ∀ target ∈ targets, target.node.WellFormed)
    (h : primary.joinTargets targets supply = (.ok node, supply')) : node.WellFormed := by
  rcases joinTargets_eq_ok h with ⟨-, rfl, -⟩ | ⟨joined, -, hattach, -, rfl, -⟩
  · exact hprimary
  · have hleft : primary.leftColumns ≠ [] := by
      simpa [leftColumns] using (wellFormed_iff.mp hprimary).1.columns_ne_nil
    refine wellFormed_iff.mpr ⟨⟨?_, ?_, "", rfl⟩, ?_⟩
    · simp only [Plan.columns, ne_eq, List.map_eq_nil_iff, List.append_eq_nil_iff]
      exact fun hnil => hleft hnil.1
    · intro column hcolumn
      obtain ⟨left, -, rfl⟩ := List.mem_map.mp hcolumn
      exact Expr.spelled_of _ _
    · exact JoinTarget.attachAll_forall_children hattach hprimary htargets

/-- The key columns stand before the others, each under the name of its key. -/
theorem map_expr_keyColumns {input : Plan} {names : List String} {columns : List Column}
    (h : List.Forall₂ (fun key column => input.keyColumn key = .ok column) names columns) :
    columns.map (·.expr) = names.map (Expr.of input.aliasName) := by
  induction h with
  | nil => rfl
  | @cons key column _ _ hkey _ ih =>
      obtain ⟨source, hsource, -, rfl⟩ := keyColumn_eq_ok hkey
      have hname : source.name = key := by simpa using List.find?_some hsource
      simp [Column.through, hname, ih]

theorem aggregateBy_wellFormed {input node : Plan} {keys : GroupKeys}
    {measures : List MeasureTerm} {supply supply' : AliasSupply}
    (hinput : input.WellFormed)
    (h : input.aggregateBy keys measures supply = (.ok node, supply')) : node.WellFormed := by
  obtain ⟨columns, hcolumns, rfl, -⟩ := aggregateBy_eq_ok h
  obtain ⟨hsome, keyColumns, measureColumns, hkeys, hmeasures, rfl, -⟩ :=
    aggregateColumns_eq_ok hcolumns
  refine wellFormed_iff.mpr ⟨⟨?_, ?_, input.aliasName, ?_⟩, by simpa [children] using hinput⟩
  · rintro hnil
    obtain ⟨rfl, rfl⟩ := List.append_eq_nil_iff.mp hnil
    cases hmeasures
    rcases hsome with hsome | hsome
    · exact hsome (List.forall₂_nil_right_iff.mp hkeys)
    · exact hsome rfl
  · intro column hcolumn
    rcases List.mem_append.mp hcolumn with hcolumn | hcolumn
    · obtain ⟨key, -, hkey⟩ := forall₂_exists_left hkeys hcolumn
      obtain ⟨source, -, -, rfl⟩ := keyColumn_eq_ok hkey
      exact Expr.spelled_of _ _
    · obtain ⟨term, -, hterm⟩ := forall₂_exists_left hmeasures hcolumn
      obtain ⟨source, e, -, -, hexpr, rfl⟩ := measureColumn_eq_ok hterm
      exact MeasureTerm.spelled_expr hexpr
  · have htake : (keyColumns ++ measureColumns).take keys.names.length = keyColumns := by
      rw [hkeys.length_eq, List.take_left]
    rw [groupExprs, htake, groupNames]
    exact map_expr_keyColumns hkeys

theorem computeMetrics_wellFormed {input node : Plan} {terms : List MetricTerm}
    {supply supply' : AliasSupply} (hinput : input.WellFormed)
    (h : input.computeMetrics terms supply = (.ok node, supply')) : node.WellFormed := by
  obtain ⟨keys, columns, hparts, rfl, -⟩ := computeMetrics_eq_ok h
  obtain ⟨-, hne, metricColumns, hmetrics, rfl, -⟩ := metricParts_eq_ok hparts
  refine wellFormed_iff.mpr ⟨⟨?_, ?_, "", rfl⟩, by simpa [children] using hinput⟩
  · rintro hnil
    obtain ⟨-, rfl⟩ := List.append_eq_nil_iff.mp hnil
    exact hne (List.forall₂_nil_right_iff.mp hmetrics)
  · intro column hcolumn
    rcases List.mem_append.mp hcolumn with hcolumn | hcolumn
    · obtain ⟨source, -, rfl⟩ := List.mem_map.mp hcolumn
      exact Expr.spelled_of _ _
    · obtain ⟨term, -, hterm⟩ := forall₂_exists_left hmetrics hcolumn
      obtain ⟨e, dataType, hcompile, rfl⟩ := metricColumn_eq_ok hterm
      exact Formula.spelled_compile hcompile

end Plan

/-- Whatever is called, all stages of all nodes are formed. -/
theorem Session.run_wellFormed (calls : List PlannerCall) :
    ∀ node ∈ (run calls).nodes, node.WellFormed :=
  run_induction Model.read_wellFormed Plan.joinTargets_wellFormed
    Plan.aggregateBy_wellFormed Plan.computeMetrics_wellFormed calls

end MetricSql
