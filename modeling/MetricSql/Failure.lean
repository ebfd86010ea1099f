import MetricSql.Decimal.Layout
import MetricSql.Dialect.Basic
import MetricSql.Schema.DataType
import MetricSql.Schema.Grain

/-!
# Failures

Why a request cannot be compiled, with the stage that found out and the message.
-/

namespace MetricSql

inductive Stage where
  | request
  | read
  | join
  | aggregate
  | computeMetrics
  | render
deriving Repr, DecidableEq

def Stage.name : Stage → String
  | request => "request"
  | read => "read"
  | join => "join"
  | aggregate => "aggregate"
  | computeMetrics => "compute metrics"
  | render => "render"

inductive JoinSide where
  | left
  | right
deriving Repr, DecidableEq

def JoinSide.name : JoinSide → String
  | left => "left"
  | right => "right"

/-- A double that has no literal. -/
inductive Unprintable where
  | notANumber
  | infinite
deriving Repr, DecidableEq

def Unprintable.message : Unprintable → String
  | notANumber => "Cannot serialize NaN to SQL"
  | infinite => "Cannot serialize Infinity to SQL"

/-- Why text is not the one statement it should be. -/
inductive Unreadable where
  /-- It does not follow the grammar. -/
  | malformed
  | statementCount (found : Nat)
deriving Repr, DecidableEq

inductive Failure where
  | unresolvedElement (stage : Stage) (scope element : String) (suggestion : Option String)
  | joinKeyTypes (key : String) (left right : DataType)
  | unresolvedJoinKey (key : String) (side : JoinSide) (aliasName : String)
  | noJoinKeys (aliasName : String)
  | missingMeasure (stage : Stage) (measure : String)
  | missingDimension (stage : Stage) (dimension : String)
  | aggregationBeforeJoin (dimension entity : String)
  | unresolvedMetricInput (metric input : String)
  | notAggregated (metric inputKind : String)
  | nonFiniteLiteral (metric : String)
  | unsupportedFeature (dialect : Dialect) (feature : String)
  | invalidOutput (dialect : Dialect) (cause : Unreadable)
  | duplicateColumn (stage : Stage) (name : String)
  | emptyQuery (stage : Stage)
  | invalidGrain (dimension : String) (grain : Grain) (reason : String)
  | severalMeasureSources (measure model expected : String)
  | missingWindowTime (model windowModel : String)
  | invalidPercentile (measure : String) (fraction : Float)
  | unprintable (cause : Unprintable)
deriving Repr, BEq

namespace Failure

def stage : Failure → Stage
  | unresolvedElement stage .. => stage
  | joinKeyTypes .. | unresolvedJoinKey .. | noJoinKeys .. => .join
  | missingMeasure stage _ | missingDimension stage _ => stage
  | aggregationBeforeJoin .. | invalidPercentile .. => .aggregate
  | unresolvedMetricInput .. | notAggregated .. | nonFiniteLiteral .. => .computeMetrics
  | unsupportedFeature .. | invalidOutput .. | unprintable .. => .render
  | duplicateColumn stage _ | emptyQuery stage => stage
  | invalidGrain .. => .read
  | severalMeasureSources .. | missingWindowTime .. => .request

def suggestionText : Option String → String
  | some name => s!". Did you mean '{name}'?"
  | none => ""

def unreadableText : Unreadable → String
  | .malformed => "syntax error"
  | .statementCount found => s!"expected one statement, found {found}"

def message : Failure → String
  | unresolvedElement stage scope element suggestion =>
    let stageName := stage.name
    let hint := suggestionText suggestion
    s!"{stageName}: unresolved element '{element}' in {scope}{hint}"
  | joinKeyTypes key left right =>
    let leftName := left.name
    let rightName := right.name
    s!"join: key '{key}' has type {leftName} on the left side but {rightName} on the right side"
  | unresolvedJoinKey key side aliasName =>
    let sideName := side.name
    s!"join: key '{key}' not found on the {sideName} side (relation '{aliasName}')"
  | noJoinKeys aliasName => s!"join: no join keys given for relation '{aliasName}'"
  | missingMeasure stage measure =>
    let stageName := stage.name
    s!"{stageName}: measure '{measure}' is not available in the input relation"
  | missingDimension stage dimension =>
    let stageName := stage.name
    s!"{stageName}: dimension '{dimension}' is not available in the input relation"
  | aggregationBeforeJoin dimension entity =>
    s!"aggregate: '{dimension}' needs a join on entity '{entity}' that has not been applied yet"
  | unresolvedMetricInput metric input =>
    s!"compute metrics: metric '{metric}' references '{input}', which is not an aggregated output"
  | notAggregated metric inputKind =>
    s!"compute metrics: metric '{metric}' needs aggregated input but got a {inputKind} node"
  | nonFiniteLiteral metric => s!"compute metrics: metric '{metric}' contains a non-finite literal"
  | unsupportedFeature dialect feature =>
    let dialectName := dialect.name
    s!"{dialectName}: unsupported dialect feature: {feature}"
  | invalidOutput dialect cause =>
    let dialectName := dialect.name
    let text := unreadableText cause
    s!"{dialectName}: rendered SQL failed to parse: {text}"
  | duplicateColumn stage name =>
    let stageName := stage.name
    s!"{stageName}: duplicate output column '{name}'"
  | emptyQuery stage =>
    let stageName := stage.name
    s!"{stageName}: nothing to select"
  | invalidGrain dimension grain reason =>
    let grainName := grain.name
    s!"read: cannot truncate '{dimension}' to {grainName}: {reason}"
  | severalMeasureSources measure model expected =>
    s!"request: measure '{measure}' lives in '{model}', but the query is anchored on '{expected}'"
  | missingWindowTime model windowModel =>
    s!"request: '{windowModel}' has a validity window, but '{model}' has no time dimension to place in it"
  | invalidPercentile measure fraction =>
    let value := Decimal.messageText fraction
    s!"aggregate: percentile {value} for measure '{measure}' is outside [0, 1]"
  | unprintable cause => cause.message

end Failure

end MetricSql
