import MetricSql.Expr.Basic

/-!
# Queries

A query selects expressions from a relation, joined with others, and groups the rows.
-/

namespace MetricSql

structure SelectItem where
  expr : Expr
  aliasName : Option String := none
deriving Repr, BEq

/-- The expression under a name, without an alias when it is a column of that name already. -/
def SelectItem.named (expr : Expr) (name : String) : SelectItem :=
  match expr with
  | .column _ column => if column = name then { expr } else { expr, aliasName := some name }
  | _ => { expr, aliasName := some name }

structure TableRef where
  schema : Option String := none
  table : String
  aliasName : String
deriving Repr, DecidableEq

inductive JoinKind where
  | inner
  | leftOuter
deriving Repr, DecidableEq

mutual

structure Query where
  /-- Lines written before the query when the profile asks for them. -/
  comments : List String := []
  select : List SelectItem := []
  source : Option Relation := none
  joins : List Join := []
  groupBy : List Expr := []

inductive Relation where
  | table (ref : TableRef)
  | subquery (query : Query) (aliasName : String)

structure Join where
  kind : JoinKind
  relation : Relation
  /-- The conditions, all of which have to hold. -/
  on : List Expr

end

end MetricSql
