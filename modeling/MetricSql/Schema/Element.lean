import MetricSql.Schema.DataType
import MetricSql.Schema.Grain

/-!
# Elements of a model

Entities identify rows and link models, dimensions are attributes to group by, and measures are quantities to
aggregate.  Each has a name and an expression over the columns of its table.
-/

namespace MetricSql

inductive EntityKind where
  | primary
  | unique
  | foreign
  | natural
deriving Repr, DecidableEq

namespace EntityKind

def name : EntityKind → String
  | primary => "primary"
  | unique => "unique"
  | foreign => "foreign"
  | natural => "natural"

def all : List EntityKind := [primary, unique, foreign, natural]

/-- Whether a value of the entity identifies one row, so that joining to it repeats no row. -/
def identifiesRows : EntityKind → Bool
  | foreign => false
  | _ => true

end EntityKind

structure Entity where
  name : String
  expression : Option String := none
  kind : EntityKind
  dataType : DataType
deriving Repr, DecidableEq

/-- The expression of the entity, its name when none is given. -/
def Entity.column (entity : Entity) : String := entity.expression.getD entity.name

inductive DimensionKind where
  | categorical
  | time
deriving Repr, DecidableEq

namespace DimensionKind

def name : DimensionKind → String
  | categorical => "categorical"
  | time => "time"

def all : List DimensionKind := [categorical, time]

end DimensionKind

structure Dimension where
  name : String
  expression : Option String := none
  kind : DimensionKind
  dataType : DataType
  /-- The finest grain that is stored. -/
  grain : Option Grain := none
deriving Repr, DecidableEq

namespace Dimension

/-- The expression of the dimension, its name when none is given. -/
def column (dimension : Dimension) : String := dimension.expression.getD dimension.name

def isTime (dimension : Dimension) : Bool := dimension.kind = .time

/-- The finest grain of a time dimension, a day when none is given. -/
def finestGrain? (dimension : Dimension) : Option Grain :=
  if dimension.isTime then some (dimension.grain.getD .day) else none

end Dimension

inductive Aggregation where
  | sum
  | count
  | min
  | max
  | countDistinct
  | average
  /-- The number of rows for which a condition holds. -/
  | sumBoolean
  | percentile (fraction : Float) (discrete approximate : Bool)
deriving Repr, BEq

namespace Aggregation

def median : Aggregation := percentile 0.5 false false

def name : Aggregation → String
  | sum => "sum"
  | count => "count"
  | min => "min"
  | max => "max"
  | countDistinct => "count_distinct"
  | average => "average"
  | sumBoolean => "sum_boolean"
  | percentile .. => "percentile"

/-- The aggregations that have no parameters. -/
def plain : List Aggregation := [sum, count, min, max, countDistinct, average, sumBoolean]

/-- The type of the aggregate of values of a type. -/
def resultType (aggregation : Aggregation) (input : Option DataType) : Option DataType :=
  match aggregation with
  | count | countDistinct | sumBoolean => some .int
  | average | percentile .. => some .float
  | sum | min | max => input

end Aggregation

/-- Where a measure takes its value in each row from. -/
inductive MeasureSource where
  | column (expression : String)
  | constant (value : Int64)
deriving Repr, DecidableEq

structure Measure where
  name : String
  aggregation : Aggregation
  source : MeasureSource
  dataType : Option DataType := none
deriving Repr, BEq

namespace Measure

/-- One for every row. -/
def rowCount (name : String) : Measure := { name, aggregation := .sum, source := .constant 1 }

/-- The type of the value in each row: as declared, else `int` for a constant. -/
def rowType (measure : Measure) : Option DataType :=
  match measure.dataType, measure.source with
  | some dataType, _ => some dataType
  | none, .constant _ => some .int
  | none, .column _ => none

end Measure

inductive Element where
  | entity (entity : Entity)
  | dimension (dimension : Dimension)
  | measure (measure : Measure)
deriving Repr, BEq

end MetricSql
