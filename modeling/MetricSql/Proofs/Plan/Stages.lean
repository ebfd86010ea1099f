import MetricSql.Plan.Render
import MetricSql.Proofs.Expr.Parts

/-!
# Stages and their queries

A plan is followed from a stage to its children.  All queries of a plan have one
form: they select the columns of the stage from its first relation, joined with
others, and group them.
-/

namespace MetricSql

namespace Plan

theorem joinedStages_eq (joined : List (Joined Plan)) :
    joinedStages joined = (joined.map (·.right)).flatMap stages := by
  induction joined with
  | nil => rfl
  | cons first rest ih =>
      rw [joinedStages, ih]
      rfl

theorem stages_eq (plan : Plan) :
    plan.stages = plan :: plan.children.flatMap stages := by
  cases plan with
  | read => simp [stages, children]
  | join => simp [stages, children, joinedStages_eq]
  | aggregate => simp [stages, children]
  | metrics => simp [stages, children]

theorem stages_inPreorder : InPreorder children stages := stages_eq

/-- A property of all stages holds of the stage itself and of the stages below. -/
theorem forall_stages_iff {P : Plan → Prop} {plan : Plan} :
    (∀ stage ∈ plan.stages, P stage) ↔
      P plan ∧ ∀ child ∈ plan.children, ∀ stage ∈ child.stages, P stage :=
  stages_inPreorder.forall_iff

/-- What passes from the children of a stage to the stage holds of all plans. -/
theorem children_induction {P : Plan → Prop}
    (step : ∀ plan, (∀ child ∈ plan.children, P child) → P plan) : ∀ plan, P plan :=
  stages_inPreorder.induction step

/-! ## The query of a stage -/

/-- What the query of a stage selects from before anything is joined. -/
def source : Plan → Relation
  | read _ _ table tableAlias _ => .table (tableRef table tableAlias)
  | join _ left _ _ => .subquery left.query left.aliasName
  | aggregate _ input _ _ _ => .subquery input.query input.aliasName
  | metrics _ input _ _ _ => .subquery input.query input.aliasName

/-- The relations that a stage joins. -/
def joined : Plan → List (Joined Plan)
  | join _ _ joined _ => joined
  | _ => []

/-- What the query of a stage groups by. -/
def groupExprs : Plan → List Expr
  | aggregate _ _ keys _ columns => (columns.take keys.names.length).map (·.expr)
  | _ => []

end Plan

/-- The join that is written for a joined relation. -/
def Joined.query (joined : Joined Plan) : Join :=
  ⟨joined.kind, .subquery joined.right.query joined.right.aliasName,
    Plan.conditions joined.right.aliasName joined.keys joined.window⟩

namespace Plan

theorem joinedQueries_eq (joined : List (Joined Plan)) :
    joinedQueries joined = joined.map Joined.query := by
  induction joined with
  | nil => rfl
  | cons first rest ih =>
      rw [joinedQueries, ih]
      rfl

theorem query_eq (plan : Plan) :
    plan.query = ⟨[plan.description], selectItems plan.columns, some plan.source,
      plan.joined.map Joined.query, plan.groupExprs⟩ := by
  cases plan <;> simp [query, source, joined, groupExprs, columns, joinedQueries_eq]

theorem right_mem_children {plan : Plan} {target : Joined Plan}
    (h : target ∈ plan.joined) : target.right ∈ plan.children := by
  cases plan with
  | join aliasName left joined columns =>
      exact List.mem_cons_of_mem _ (List.mem_map_of_mem h)
  | _ => cases h

/-- A stage that reads no table selects from its first child. -/
theorem source_eq (plan : Plan) :
    (∃ table tableAlias, plan.source = .table (tableRef table tableAlias) ∧
        plan.children = [] ∧ plan.joined = []) ∨
      ∃ child, plan.source = .subquery child.query child.aliasName ∧
        plan.children = child :: plan.joined.map (·.right) := by
  cases plan with
  | read aliasName model table tableAlias columns => exact .inl ⟨table, tableAlias, rfl, rfl, rfl⟩
  | join aliasName left joined columns => exact .inr ⟨left, rfl, rfl⟩
  | aggregate aliasName input keys measures columns => exact .inr ⟨input, rfl, rfl⟩
  | metrics aliasName input keys terms columns => exact .inr ⟨input, rfl, rfl⟩

/-- The conditions of joins are built from columns with a few operators. -/
theorem forall_parts_conditions {P : Expr → Prop}
    (hcolumn : ∀ table name, P (.column table name))
    (hbinary : ∀ op left right, P (.binary op left right))
    (hisNull : ∀ operand, P (.isNull operand)) (hparen : ∀ inner, P (.paren inner))
    {right : String} {keys : List KeyMatch} {window : Option WindowMatch} :
    ∀ condition ∈ conditions right keys window, ∀ part ∈ condition.parts, P part := by
  intro condition hcondition
  unfold conditions at hcondition
  rcases List.mem_append.mp hcondition with hkey | hwindow
  · obtain ⟨key, -, rfl⟩ := List.mem_map.mp hkey
    simp [keyCondition, Expr.of, Expr.parts, hcolumn, hbinary]
  · cases window with
    | none => cases hwindow
    | some window =>
        simp only [windowConditions, Expr.asOperand, Expr.isCompound, if_true, List.mem_cons,
          List.not_mem_nil, or_false] at hwindow
        rcases hwindow with rfl | rfl <;>
          simp [Expr.of, Expr.parts, hcolumn, hbinary, hisNull, hparen]

theorem mem_exprs_iff {plan : Plan} {e : Expr} :
    e ∈ plan.exprs ↔ ∃ stage ∈ plan.stages, ∃ column ∈ stage.columns, column.expr = e := by
  simp [exprs]

end Plan

end MetricSql
