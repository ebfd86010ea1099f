import MetricSql.Expr.Basic
import MetricSql.Profile

/-!
# What a dialect can say

Truncation and percentiles are the constructs that some dialects lack.
-/

namespace MetricSql.Profile

def percentileName (discrete approximate : Bool) : String :=
  match discrete, approximate with
  | false, false => "continuous percentile"
  | true, false => "discrete percentile"
  | false, true => "approximate continuous percentile"
  | true, true => "approximate discrete percentile"

/-- What the dialect lacks for the outermost construct of an expression. -/
def missingFeature? (profile : Profile) : Expr → Option String
  | .dateTrunc grain _ =>
    if profile.dialect.truncation?.isNone then some ("date truncation to " ++ grain.name) else none
  | .percentile _ _ discrete approximate =>
    if (profile.dialect.percentile? discrete approximate).isNone then
      some (percentileName discrete approximate)
    else none
  | _ => none

/-- Refuses an expression for the first construct in it that the dialect lacks. -/
def check (profile : Profile) (e : Expr) : Except Failure Unit :=
  match e.parts.findSome? profile.missingFeature? with
  | some feature => .error (.unsupportedFeature profile.dialect feature)
  | none => .ok ()

end MetricSql.Profile
