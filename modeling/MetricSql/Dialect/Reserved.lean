/-!
# Reserved words

The words that are quoted when they are used as names, whatever their case.
-/

namespace MetricSql

def reservedWords : List String := [
  "all", "and", "any", "as", "asc", "between", "by", "case", "cast", "check", "column", "constraint",
  "create", "cross", "current_date", "current_time", "current_timestamp", "current_user", "default",
  "delete", "desc", "distinct", "drop", "else", "end", "except", "exists", "false", "fetch", "for",
  "foreign", "from", "full", "grant", "group", "having", "in", "inner", "insert", "intersect", "interval",
  "into", "is", "join", "key", "lateral", "left", "like", "limit", "natural", "not", "null", "of",
  "offset", "on", "or", "order", "outer", "over", "partition", "primary", "qualify", "range",
  "references", "right", "rows", "select", "set", "some", "table", "then", "to", "top", "true", "union",
  "unique", "update", "user", "using", "values", "when", "where", "window", "with"]

def lowerAscii (text : String) : String := String.ofList (text.toList.map Char.toLower)

def isReserved (name : String) : Bool := reservedWords.contains (lowerAscii name)

end MetricSql
