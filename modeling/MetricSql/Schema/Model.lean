import MetricSql.Schema.Element
import MetricSql.Schema.Table

/-!
# Models

A model gives names to expressions over the columns of one table.
-/

namespace MetricSql

/-- The two time dimensions between which a row is valid.  The second is exclusive, and null while the row is
current. -/
structure ValidityWindow where
  start : String
  stop : String
deriving Repr, DecidableEq

structure Model where
  name : String
  table : Table
  entities : List Entity := []
  dimensions : List Dimension := []
  measures : List Measure := []
  /-- Set when rows are valid for a period only. -/
  window : Option ValidityWindow := none
deriving Repr, BEq

namespace Model

def entity? (model : Model) (name : String) : Option Entity :=
  model.entities.find? (·.name == name)

def dimension? (model : Model) (name : String) : Option Dimension :=
  model.dimensions.find? (·.name == name)

def measure? (model : Model) (name : String) : Option Measure :=
  model.measures.find? (·.name == name)

/-- The element of a name: entities come before dimensions, and dimensions before measures. -/
def element? (model : Model) (name : String) : Option Element :=
  match model.entity? name with
  | some entity => some (.entity entity)
  | none =>
    match model.dimension? name with
    | some dimension => some (.dimension dimension)
    | none => (model.measure? name).map .measure

/-- The names of all elements in the order of declaration. -/
def elementNames (model : Model) : List String :=
  model.entities.map (·.name) ++ model.dimensions.map (·.name) ++ model.measures.map (·.name)

/-- The first time dimension, by which rows are placed in the validity window of another model. -/
def timeDimension? (model : Model) : Option Dimension :=
  model.dimensions.find? (·.isTime)

/-- Whether each value of the entity identifies one row of the model. -/
def isIdentifiedBy (model : Model) (entity : String) : Bool :=
  (model.entity? entity).any (·.kind.identifiesRows)

end Model

end MetricSql
