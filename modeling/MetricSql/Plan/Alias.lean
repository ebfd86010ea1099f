/-!
# Aliases

Aliases are handed out in the order in which stages are built, so they depend on nothing else.
-/

namespace MetricSql

structure AliasSupply where
  subqueries : Nat := 0
  tables : Nat := 0
deriving Repr, DecidableEq

namespace AliasSupply

def subqueryAlias (n : Nat) : String := "subq_" ++ toString n

def tableAlias (model : String) (n : Nat) : String := model ++ "_src_" ++ toString n

/-- The next alias of a stage. -/
def subquery (supply : AliasSupply) : String × AliasSupply :=
  (subqueryAlias supply.subqueries, { supply with subqueries := supply.subqueries + 1 })

/-- The next alias of a physical table. -/
def table (supply : AliasSupply) (model : String) : String × AliasSupply :=
  (tableAlias model supply.tables, { supply with tables := supply.tables + 1 })

end AliasSupply

end MetricSql
