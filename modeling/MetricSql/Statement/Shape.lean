import MetricSql.Failure
import MetricSql.Statement.Parser

/-!
# Shapes of statements

The columns and group keys of every query in a statement.
-/

namespace MetricSql

structure Shape where
  /-- The name under which the query around it selects from the query. -/
  aliasName : Option String
  columns : List String
  groupBy : List String
deriving Repr, DecidableEq

mutual

/-- The shape of a query, then those of the queries it selects from. -/
def Body.shapes (aliasName : Option String) : Body → List Shape
  | .select projections factors groupBy =>
    ⟨aliasName, projections.filterMap Projection.columnName?, groupBy.columnNames⟩ :: factorShapes factors
  | .combined _ _ => []

def factorShapes : List Factor → List Shape
  | [] => []
  | factor :: rest => factor.shapes ++ factorShapes rest

def Factor.shapes : Factor → List Shape
  | .table _ _ => []
  | .derived body aliasName => body.shapes aliasName

end

def Statement.shapes : Statement → List Shape
  | .query body => body.shapes none
  | .dropTable _ => []

namespace Dialect

def statements (dialect : Dialect) (sql : String) : Except Failure (List Statement) :=
  match Statement.readAll dialect sql with
  | some statements => .ok statements
  | none => .error (.invalidOutput dialect .malformed)

/-- Accepts text that is exactly one statement. -/
def validate (dialect : Dialect) (sql : String) : Except Failure Unit := do
  let statements ← dialect.statements sql
  if statements.length = 1 then return ()
  else throw (.invalidOutput dialect (.statementCount statements.length))

/-- The shapes of all queries, an outer one before those it selects from. -/
def shapes (dialect : Dialect) (sql : String) : Except Failure (List Shape) := do
  let statements ← dialect.statements sql
  return statements.flatMap Statement.shapes

end Dialect

end MetricSql
