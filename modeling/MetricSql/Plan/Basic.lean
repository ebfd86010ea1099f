import MetricSql.Metric.Formula
import MetricSql.Plan.GroupKeys
import MetricSql.Query.Basic
import MetricSql.Schema.Model

/-!
# Plans

A plan is a tree of stages: models are read, joined, aggregated, and metrics are computed from the aggregates.
Every stage has an alias under which the stage above it selects its columns.
-/

namespace MetricSql

/-- The condition that a column of the left side equals a column of the right side. -/
structure KeyMatch where
  key : String
  leftAlias : String
  leftColumn : String
  rightColumn : String
deriving Repr, DecidableEq

/-- The condition that a time on the left side lies in a validity window on the right side. -/
structure WindowMatch where
  leftAlias : String
  leftColumn : String
  startColumn : String
  stopColumn : String
deriving Repr, DecidableEq

/-- A relation on the right side of a join. -/
structure Joined (P : Type) where
  right : P
  kind : JoinKind
  keys : List KeyMatch
  window : Option WindowMatch
  /-- The name before the names of the columns that are taken over. -/
  qualifier : Option String
deriving Repr, BEq

/-- A measure to aggregate. -/
structure MeasureTerm where
  name : String
  aggregation : Aggregation
deriving Repr, BEq

/-- A metric to compute. -/
structure MetricTerm where
  name : String
  formula : Formula
deriving Repr, BEq

inductive Plan where
  | read (aliasName model : String) (table : Table) (tableAlias : String) (columns : List Column)
  | join (aliasName : String) (left : Plan) (joined : List (Joined Plan)) (columns : List Column)
  | aggregate (aliasName : String) (input : Plan) (keys : GroupKeys) (measures : List MeasureTerm)
    (columns : List Column)
  | metrics (aliasName : String) (input : Plan) (keys : GroupKeys) (terms : List MetricTerm)
    (columns : List Column)
deriving Repr, BEq

namespace Plan

def aliasName : Plan → String
  | read aliasName .. | join aliasName .. | aggregate aliasName .. | metrics aliasName .. => aliasName

def columns : Plan → List Column
  | read _ _ _ _ columns | join _ _ _ columns | aggregate _ _ _ _ columns | metrics _ _ _ _ columns => columns

def column? (plan : Plan) (name : String) : Option Column :=
  plan.columns.find? (·.name == name)

def columnNames (plan : Plan) : List String := plan.columns.map (·.name)

/-- The stages directly below, from left to right. -/
def children : Plan → List Plan
  | read .. => []
  | join _ left joined _ => left :: joined.map (·.right)
  | aggregate _ input .. => [input]
  | metrics _ input .. => [input]

def kindName : Plan → String
  | read .. => "read"
  | join .. => "join"
  | aggregate .. => "aggregate"
  | metrics .. => "compute metrics"

/-- The comment that is written above the stage. -/
def description : Plan → String
  | read _ model .. => "Read Elements From Semantic Model '" ++ model ++ "'"
  | join .. => "Join Standard Outputs"
  | aggregate .. => "Aggregate Measures"
  | metrics .. => "Compute Metrics via Expressions"

mutual

/-- All stages, a stage before those below it. -/
def stages : Plan → List Plan
  | read aliasName model table tableAlias columns => [read aliasName model table tableAlias columns]
  | join aliasName left joined columns =>
    join aliasName left joined columns :: (left.stages ++ joinedStages joined)
  | aggregate aliasName input keys measures columns =>
    aggregate aliasName input keys measures columns :: input.stages
  | metrics aliasName input keys terms columns => metrics aliasName input keys terms columns :: input.stages

def joinedStages : List (Joined Plan) → List Plan
  | [] => []
  | ⟨right, _, _, _, _⟩ :: rest => right.stages ++ joinedStages rest

end

/-- The number of stages. -/
def size (plan : Plan) : Nat := plan.stages.length

end Plan

end MetricSql
