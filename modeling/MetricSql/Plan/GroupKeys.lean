import MetricSql.Plan.Column

/-!
# Group keys

The names rows are grouped by: in order, and no name twice.
-/

namespace MetricSql

structure GroupKeys where
  names : List String
  distinct : names.Nodup
deriving Repr, DecidableEq

namespace GroupKeys

def empty : GroupKeys := ⟨[], List.nodup_nil⟩

def ofNames (names : List String) : Except Failure GroupKeys :=
  match h : firstRepeated? [] names with
  | some name => .error (.duplicateColumn .aggregate name)
  | none => .ok ⟨names, ((firstRepeated?_eq_none_iff [] names).1 h).1⟩

def contains (keys : GroupKeys) (name : String) : Bool := keys.names.contains name

end GroupKeys

end MetricSql
