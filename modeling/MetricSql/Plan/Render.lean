import MetricSql.Expr.Support
import MetricSql.Plan.Basic
import MetricSql.Query.Tokens

/-!
# Writing plans

Every stage becomes a query, which selects from the queries of the stages below it under their aliases.
-/

namespace MetricSql

namespace Plan

def selectItems (columns : List Column) : List SelectItem :=
  columns.map fun column => .named column.expr column.name

def tableRef (table : Table) (tableAlias : String) : TableRef :=
  { schema := table.schema, table := table.name, aliasName := tableAlias }

def keyCondition (right : String) (key : KeyMatch) : Expr :=
  .binary .eq (.of key.leftAlias key.leftColumn) (.of right key.rightColumn)

/-- The start is not after the time, and the end is after it or open. -/
def windowConditions (right : String) (window : WindowMatch) : List Expr :=
  let time := Expr.of window.leftAlias window.leftColumn
  let stop := Expr.of right window.stopColumn
  [.binary .gtEq time (.of right window.startColumn),
    (Expr.binary .or (.binary .lt time stop) (.isNull stop)).asOperand]

def conditions (right : String) (keys : List KeyMatch) (window : Option WindowMatch) : List Expr :=
  keys.map (keyCondition right) ++
    match window with
    | some window => windowConditions right window
    | none => []

mutual

/-- The query of a stage. -/
def query : Plan → Query
  | read aliasName model table tableAlias columns =>
    { comments := [description (.read aliasName model table tableAlias columns)]
      select := selectItems columns
      source := some (.table (tableRef table tableAlias)) }
  | join aliasName left joined columns =>
    { comments := [description (.join aliasName left joined columns)]
      select := selectItems columns
      source := some (.subquery left.query left.aliasName)
      joins := joinedQueries joined }
  | aggregate aliasName input keys measures columns =>
    { comments := [description (.aggregate aliasName input keys measures columns)]
      select := selectItems columns
      source := some (.subquery input.query input.aliasName)
      groupBy := (columns.take keys.names.length).map (·.expr) }
  | metrics aliasName input keys terms columns =>
    { comments := [description (.metrics aliasName input keys terms columns)]
      select := selectItems columns
      source := some (.subquery input.query input.aliasName) }

def joinedQueries : List (Joined Plan) → List Join
  | [] => []
  | ⟨right, kind, keys, window, _⟩ :: rest =>
    ⟨kind, .subquery right.query right.aliasName, conditions right.aliasName keys window⟩ ::
      joinedQueries rest

end

/-- The expressions of all columns, a stage before those below it. -/
def exprs (plan : Plan) : List Expr :=
  plan.stages.flatMap fun stage => stage.columns.map (·.expr)

end Plan

namespace Profile

/-- The SQL of a plan, if the dialect can say all of it. -/
def render (profile : Profile) (plan : Plan) : Except Failure String := do
  profile.validate
  plan.exprs.forM profile.check
  match plan.query.text profile with
  | .ok sql => return sql
  | .error cause => throw (.unprintable cause)

end Profile

end MetricSql
