import MetricSql.Plan.Aggregate
import MetricSql.Plan.Join
import MetricSql.Plan.Metrics
import MetricSql.Plan.Read
import MetricSql.Resolve.Groups
import MetricSql.Resolve.Measures

/-!
# The plan of a request

All names are resolved before a stage is built.  Then the anchor is read, the linked models are read and joined
to it, the rows are aggregated, and the metrics are computed.
-/

namespace MetricSql

/-- A request with all names resolved. -/
structure Resolved where
  metrics : List Metric
  anchor : Model
  measures : List MeasureTerm
  /-- What is read from the anchor. -/
  elements : List ElementRef
  linked : List LinkedRead
  /-- The time of the anchor that lies in the validity windows, if a linked model has one. -/
  time : Option String
  keys : GroupKeys

def Manifest.resolve (manifest : Manifest) (request : Request) : Except Failure Resolved := do
  if request.metrics.isEmpty then throw (.emptyQuery .request)
  let metrics ← request.metrics.mapM manifest.resolveMetric
  let (anchor, measures) ← manifest.resolveMeasures metrics
  let grouping ← manifest.resolveGroups anchor request.groupBy
  let elements := grouping.links.foldl addElement grouping.elements
  let (linked, time) ← LinkedRead.addWindows anchor grouping.linked
  let elements := time.toList.foldl addElement elements
  let elements := elements ++ measures.map fun m => ⟨m.name, none⟩
  let keys ← GroupKeys.ofNames (request.groupBy.map (·.columnName))
  return { metrics, anchor, measures, elements, linked, time, keys }

/-- The join of a linked model, inside its validity window if it has one. -/
def LinkedRead.target (time : Option String) (read : LinkedRead) (node : Plan) : JoinTarget :=
  { node, keys := [read.entity], qualifier := some read.entity,
    window :=
      match read.model.window, time with
      | some window, some time => some ⟨time, window.start, window.stop⟩
      | _, _ => none }

/-- The targets of the linked models, read in order. -/
def LinkedRead.readAll (time : Option String) :
    List LinkedRead → AliasSupply → Except Failure (List JoinTarget × AliasSupply)
  | [], supply => .ok ([], supply)
  | read :: rest, supply =>
    match read.model.read read.elements supply with
    | (.error failure, _) => .error failure
    | (.ok node, supply) => do
      let (targets, supply) ← readAll time rest supply
      return (read.target time node :: targets, supply)

def Resolved.plan (resolved : Resolved) : Except Failure Plan :=
  match resolved.anchor.read resolved.elements {} with
  | (.error failure, _) => .error failure
  | (.ok primary, supply) => do
    let (targets, supply) ← LinkedRead.readAll resolved.time resolved.linked supply
    match primary.joinTargets targets supply with
    | (.error failure, _) => .error failure
    | (.ok joined, supply) =>
      match joined.aggregateBy resolved.keys resolved.measures supply with
      | (.error failure, _) => .error failure
      | (.ok aggregated, supply) =>
        (aggregated.computeMetrics (resolved.metrics.map fun m => ⟨m.name, m.formula⟩) supply).1

/-- The plan of a request. -/
def Manifest.plan (manifest : Manifest) (request : Request) : Except Failure Plan := do
  let resolved ← manifest.resolve request
  resolved.plan

end MetricSql
