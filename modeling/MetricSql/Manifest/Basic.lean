import MetricSql.Metric.Formula
import MetricSql.Naming
import MetricSql.Schema.Model

/-!
# The manifest

The models and metrics that can be queried, with the ways to look them up.  Where a name occurs twice, the
first declaration counts.
-/

namespace MetricSql

structure Manifest where
  models : List Model := []
  metrics : List Metric := []
deriving Repr, BEq

namespace Manifest

def model? (manifest : Manifest) (name : String) : Option Model :=
  manifest.models.find? (·.name == name)

def metric? (manifest : Manifest) (name : String) : Option Metric :=
  manifest.metrics.find? (·.name == name)

/-- The first model that defines a measure. -/
def modelOfMeasure? (manifest : Manifest) (measure : String) : Option Model :=
  manifest.models.find? fun model => (model.measure? measure).isSome

/-- The models other than `exclude` whose rows the entity identifies. -/
def identifiedBy (manifest : Manifest) (entity exclude : String) : List Model :=
  manifest.models.filter fun model => model.name != exclude && model.isIdentifiedBy entity

/-- The first model with the dimension among those that can be joined through the entity. -/
def linkedModel? (manifest : Manifest) (entity dimension exclude : String) : Option Model :=
  manifest.models.find? fun model =>
    model.name != exclude && model.isIdentifiedBy entity && (model.dimension? dimension).isSome

/-- The qualified names of the dimensions that can be reached through the entity. -/
def linkedNames (manifest : Manifest) (entity exclude : String) : List String :=
  (manifest.identifiedBy entity exclude).flatMap fun model =>
    model.dimensions.map fun dimension => qualified entity dimension.name

def metricNames (manifest : Manifest) : List String := manifest.metrics.map (·.name)

def measureNames (manifest : Manifest) : List String :=
  manifest.models.flatMap fun model => model.measures.map (·.name)

/-- The models and entities of models such that no model of another name has the entity. -/
def isolatedEntities (manifest : Manifest) : List (String × String) :=
  (manifest.models.flatMap fun model => model.entities.map fun entity => (model.name, entity.name)).filter
    fun (model, entity) =>
      !manifest.models.any fun other => other.name != model && (other.entity? entity).isSome

end Manifest

end MetricSql
