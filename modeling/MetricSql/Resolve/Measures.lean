import MetricSql.Failure
import MetricSql.Manifest.Basic
import MetricSql.Plan.Basic
import MetricSql.Request
import MetricSql.Text.Nearest

/-!
# Metrics and measures of a request

The metrics are looked up first, then the measures they use.  All measures must belong to one model, the
anchor of the request.
-/

namespace MetricSql

namespace Manifest

def resolveMetric (manifest : Manifest) (name : String) : Except Failure Metric :=
  match manifest.metric? name with
  | some metric => .ok metric
  | none =>
    .error (.unresolvedElement .request "semantic manifest metrics" name
      (Text.nearest? name manifest.metricNames))

end Manifest

/-- The measures found so far, and the model they come from. -/
structure MeasureSet where
  anchor : Option Model := none
  terms : List MeasureTerm := []

namespace MeasureSet

def unresolved (manifest : Manifest) (metric : Metric) (input : String) : Failure :=
  .unresolvedElement .request ("measures of metric '" ++ metric.name ++ "'") input
    (Text.nearest? input manifest.measureNames)

/-- The set with one more measure of a model; the first model becomes the anchor. -/
def insert (set : MeasureSet) (model : Model) (input : String) : Except Failure MeasureSet :=
  let terms := set.terms ++ ((model.measure? input).map fun m => ⟨m.name, m.aggregation⟩).toList
  match set.anchor with
  | some anchor =>
    if anchor.name = model.name then .ok ⟨some anchor, terms⟩
    else .error (.severalMeasureSources input model.name anchor.name)
  | none => .ok ⟨some model, terms⟩

/-- The set with an input of a metric, unless it is there already. -/
def addInput (manifest : Manifest) (metric : Metric) (set : MeasureSet) (input : String) :
    Except Failure MeasureSet :=
  if set.terms.any (·.name == input) then .ok set
  else
    match manifest.modelOfMeasure? input with
    | none => .error (unresolved manifest metric input)
    | some model => set.insert model input

def addMetric (manifest : Manifest) (set : MeasureSet) (metric : Metric) : Except Failure MeasureSet :=
  metric.inputs.foldlM (addInput manifest metric) set

end MeasureSet

/-- The anchor of the metrics and their measures in the order of first use. -/
def Manifest.resolveMeasures (manifest : Manifest) (metrics : List Metric) :
    Except Failure (Model × List MeasureTerm) := do
  let set ← metrics.foldlM (MeasureSet.addMetric manifest) {}
  match set.anchor with
  | some anchor => return (anchor, set.terms)
  | none => throw (.emptyQuery .request)

end MetricSql
