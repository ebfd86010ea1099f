/-!
# Qualified names

A name reached through another one, or truncated to a grain, is written with two underscores between the
parts: `listing__country`, `ds__month`.
-/

namespace MetricSql

/-- Two names as one, such as `a__b`. -/
def qualified (a b : String) : String := a ++ "__" ++ b

/-- The parts before and after the first two adjacent underscores. -/
def splitQualified? : List Char → Option (List Char × List Char)
  | [] => none
  | '_' :: '_' :: rest => some ([], rest)
  | c :: rest => (splitQualified? rest).map fun (before, after) => (c :: before, after)

end MetricSql
