/-!
# Physical tables
-/

namespace MetricSql

structure Table where
  schema : Option String := none
  name : String
deriving Repr, DecidableEq

/-- The name after the schema, if there is one. -/
def Table.text (table : Table) : String :=
  match table.schema with
  | some schema => schema ++ "." ++ table.name
  | none => table.name

end MetricSql
