/-!
# Data types

The logical type of an element.
-/

namespace MetricSql

inductive DataType where
  | string
  | int
  | decimal
  | float
  | bool
  | date
  | timestamp
deriving Repr, DecidableEq

namespace DataType

def name : DataType → String
  | string => "string"
  | int => "int"
  | decimal => "decimal"
  | float => "float"
  | bool => "bool"
  | date => "date"
  | timestamp => "timestamp"

def all : List DataType := [string, int, decimal, float, bool, date, timestamp]

/-- Whether values of the type can be truncated to a grain. -/
def isTemporal : DataType → Bool
  | date | timestamp => true
  | _ => false

end DataType

end MetricSql
