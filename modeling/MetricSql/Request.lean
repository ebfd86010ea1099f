import MetricSql.Naming
import MetricSql.Schema.Grain

/-!
# Requests

A request asks for metrics, sliced by group items.
-/

namespace MetricSql

/-- An element of a model, truncated to a grain if one is given. -/
structure ElementRef where
  name : String
  grain : Option Grain := none
deriving Repr, DecidableEq

/-- The name of the column that holds the element. -/
def ElementRef.columnName (ref : ElementRef) : String :=
  match ref.grain with
  | some grain => qualified ref.name grain.name
  | none => ref.name

structure GroupItem where
  /-- The name of a dimension or an entity. -/
  name : String
  /-- The entity through which the element is reached from the model of the measures. -/
  via : Option String := none
  grain : Option Grain := none
deriving Repr, DecidableEq

namespace GroupItem

def element (item : GroupItem) : ElementRef := ⟨item.name, item.grain⟩

/-- The name of the column in the result. -/
def columnName (item : GroupItem) : String :=
  let name :=
    match item.via with
    | some entity => qualified entity item.name
    | none => item.name
  match item.grain with
  | some grain => qualified name grain.name
  | none => name

end GroupItem

structure Request where
  metrics : List String := []
  groupBy : List GroupItem := []
deriving Repr, DecidableEq

end MetricSql
