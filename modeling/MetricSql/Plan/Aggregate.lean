import MetricSql.Naming
import MetricSql.Plan.Alias
import MetricSql.Plan.Basic

/-!
# Aggregating a stage

Rows are grouped by the keys, and each measure is aggregated.
-/

namespace MetricSql

/-- The aggregate of a column. -/
def MeasureTerm.expr (term : MeasureTerm) (column : Expr) : Except Failure Expr :=
  match term.aggregation with
  | .sum => .ok column.sum
  | .count => .ok column.count
  | .min => .ok column.min
  | .max => .ok column.max
  | .countDistinct => .ok column.countDistinct
  | .average => .ok column.avg
  | .sumBoolean => .ok column.indicator.sum
  | .percentile fraction discrete approximate =>
    if 0.0 ≤ fraction ∧ fraction ≤ 1.0 then .ok (.percentile column fraction discrete approximate)
    else .error (.invalidPercentile term.name fraction)

namespace Plan

/-- Why a key is not there: its entity is, so that a join is missing, or nothing is known of it. -/
def missingKey (input : Plan) (key : String) : Failure :=
  match splitQualified? key.toList with
  | some (entity, _) =>
    let entity := String.ofList entity
    if (input.column? entity).any (·.role = .entity) then .aggregationBeforeJoin key entity
    else .missingDimension .aggregate key
  | none => .missingDimension .aggregate key

def keyColumn (input : Plan) (key : String) : Except Failure Column :=
  match input.column? key with
  | some column =>
    if column.role.isGroupable then .ok (column.through input.aliasName) else .error (input.missingKey key)
  | none => .error (input.missingKey key)

def measureColumn (input : Plan) (term : MeasureTerm) : Except Failure Column :=
  match (input.column? term.name).filter (·.role = .measure) with
  | some column => do
    let expr ← term.expr (.of input.aliasName term.name)
    return ⟨term.name, expr, .measure, term.aggregation.resultType column.dataType⟩
  | none => .error (.missingMeasure .aggregate term.name)

/-- The keys in order, then the aggregates. -/
def aggregateColumns (input : Plan) (keys : GroupKeys) (measures : List MeasureTerm) :
    Except Failure (List Column) := do
  if keys.names.isEmpty && measures.isEmpty then throw (.emptyQuery .aggregate)
  let keyColumns ← keys.names.mapM input.keyColumn
  let measureColumns ← measures.mapM input.measureColumn
  let columns := keyColumns ++ measureColumns
  ensureUnique .aggregate columns
  return columns

def aggregateBy (input : Plan) (keys : GroupKeys) (measures : List MeasureTerm) (supply : AliasSupply) :
    Except Failure Plan × AliasSupply :=
  match input.aggregateColumns keys measures with
  | .error failure => (.error failure, supply)
  | .ok columns =>
    let (aliasName, supply) := supply.subquery
    (.ok (.aggregate aliasName input keys measures columns), supply)

end Plan

end MetricSql
