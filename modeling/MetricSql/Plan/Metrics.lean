import MetricSql.Plan.Alias
import MetricSql.Plan.Basic

/-!
# Computing metrics

Formulas become expressions over the columns of an aggregated stage, beside the group keys.
-/

namespace MetricSql

/-- The operands of a sum, difference or product are put in parentheses where that may be needed. -/
def Operator.apply (operator : Operator) (left right : Expr) : Expr :=
  match operator with
  | .add => .binary .add left.asOperand right.asOperand
  | .sub => .binary .sub left.asOperand right.asOperand
  | .mul => .binary .mul left.asOperand right.asOperand
  | .div => .safeDivide left right

def Operator.resultType (operator : Operator) (left right : Option DataType) : Option DataType :=
  match operator with
  | .div => some .float
  | _ => if left = right then left else some .float

/-- The expression and the type of a formula of the metric `metric` over the columns of a stage. -/
def Formula.compile (input : Plan) (metric : String) : Formula → Except Failure (Expr × Option DataType)
  | .input name =>
    match (input.column? name).filter (fun column => column.role = .measure || column.role = .metric) with
    | some column => .ok (.of input.aliasName name, column.dataType)
    | none => .error (.unresolvedMetricInput metric name)
  | .literal value =>
    if Decimal.isFinite value then .ok (.float value, some .float) else .error (.nonFiniteLiteral metric)
  | .neg operand => do
    let (expr, dataType) ← operand.compile input metric
    return (.neg expr.asOperand, dataType)
  | .binary operator left right => do
    let (left, leftType) ← left.compile input metric
    let (right, rightType) ← right.compile input metric
    return (operator.apply left right, operator.resultType leftType rightType)
  | .ratio numerator denominator => do
    let (numerator, _) ← numerator.compile input metric
    let (denominator, _) ← denominator.compile input metric
    return (.safeDivide (.castFloat numerator) (.castFloat denominator), some .float)

namespace Plan

/-- The group keys of an aggregated stage. -/
def groupKeys? : Plan → Option GroupKeys
  | .aggregate _ _ keys .. | .metrics _ _ keys .. => some keys
  | _ => none

def metricColumn (input : Plan) (term : MetricTerm) : Except Failure Column := do
  let (expr, dataType) ← term.formula.compile input term.name
  return ⟨term.name, expr, .metric, dataType⟩

/-- The keys and the columns of a stage that computes metrics: the columns of the keys in order, then one for
each metric. -/
def metricParts (input : Plan) (terms : List MetricTerm) : Except Failure (GroupKeys × List Column) :=
  match input.groupKeys? with
  | none => .error (.notAggregated ((terms.head?.map (·.name)).getD "") input.kindName)
  | some keys => do
    if terms.isEmpty then throw (.emptyQuery .computeMetrics)
    let keyColumns := (keys.names.filterMap input.column?).map (·.through input.aliasName)
    let metricColumns ← terms.mapM input.metricColumn
    let columns := keyColumns ++ metricColumns
    ensureUnique .computeMetrics columns
    return (keys, columns)

def computeMetrics (input : Plan) (terms : List MetricTerm) (supply : AliasSupply) :
    Except Failure Plan × AliasSupply :=
  match input.metricParts terms with
  | .error failure => (.error failure, supply)
  | .ok (keys, columns) =>
    let (aliasName, supply) := supply.subquery
    (.ok (.metrics aliasName input keys terms columns), supply)

end Plan

end MetricSql
