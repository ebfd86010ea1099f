import MetricSql.Dialect.Basic
import MetricSql.Dialect.Reserved
import MetricSql.Schema.Grain
import MetricSql.Text.Quoted

/-!
# How a dialect spells things

Quotes, the type of floating-point numbers, and the functions that differ between warehouses.  `none` means
that the dialect has no way to say it.
-/

namespace MetricSql

/-- Where the date part stands in a call that truncates a date. -/
inductive TruncationCall where
  /-- Written `F('month', d)`. -/
  | quotedPartFirst (function : String)
  /-- Written `F(MONTH, d)`. -/
  | keywordPartFirst (function : String)
  /-- Written `F(d, MONTH)`. -/
  | keywordPartLast (function : String)
deriving Repr, DecidableEq

inductive PercentileCall where
  /-- Written `F(p) WITHIN GROUP (ORDER BY x)`. -/
  | withinGroup (function : String)
  /-- Written `F(x, p)`. -/
  | plain (function : String)
deriving Repr, DecidableEq

/-- The exact percentiles of the standard. -/
def standardPercentile? (discrete approximate : Bool) : Option PercentileCall :=
  match discrete, approximate with
  | false, false => some (.withinGroup "PERCENTILE_CONT")
  | true, false => some (.withinGroup "PERCENTILE_DISC")
  | _, true => none

/-- The exact percentiles of the standard, and a function for approximate continuous ones. -/
def approximatePercentile? (function : String) (discrete approximate : Bool) : Option PercentileCall :=
  match discrete, approximate with
  | false, true => some (.plain function)
  | _, _ => standardPercentile? discrete approximate

namespace Dialect

/-- The marks around a quoted identifier. -/
def identifierMarks : Dialect → Char × Char
  | mysql | bigquery | databricks => ('\x60', '\x60')
  | tsql => ('[', ']')
  | duckdb | postgres | snowflake | redshift => ('"', '"')

def quoteIdentifier (dialect : Dialect) (name : String) : String :=
  Text.quoted dialect.identifierMarks.1 dialect.identifierMarks.2 name

def isAscii (text : String) : Bool := text.toList.all fun c => c.toNat < 128

/-- A string literal, marked as national where the dialect keeps other characters only in those. -/
def quoteString (dialect : Dialect) (text : String) : String :=
  match dialect with
  | tsql => if isAscii text then Text.quoted '\'' '\'' text else "N" ++ Text.quoted '\'' '\'' text
  | _ => Text.quoted '\'' '\'' text

def floatType : Dialect → String
  | postgres | redshift => "DOUBLE PRECISION"
  | bigquery => "FLOAT64"
  | tsql => "FLOAT"
  | duckdb | mysql | snowflake | databricks => "DOUBLE"

def truncation? : Dialect → Option TruncationCall
  | tsql => some (.keywordPartFirst "DATETRUNC")
  | bigquery => some (.keywordPartLast "DATETIME_TRUNC")
  | mysql => none
  | duckdb | postgres | snowflake | redshift | databricks => some (.quotedPartFirst "DATE_TRUNC")

/-- The name of a grain as a date part. -/
def datePart (dialect : Dialect) (grain : Grain) : String :=
  match dialect, grain with
  | bigquery, .week => "isoweek"
  | _, grain => grain.name

/-- The function that divides and gives null for a zero denominator. -/
def safeDivision? : Dialect → Option String
  | bigquery => some "SAFE_DIVIDE"
  | databricks => some "TRY_DIVIDE"
  | _ => none

def percentile? (dialect : Dialect) (discrete approximate : Bool) : Option PercentileCall :=
  match dialect with
  | tsql | mysql | bigquery => none
  | postgres | redshift => standardPercentile? discrete approximate
  | duckdb => approximatePercentile? "APPROX_QUANTILE" discrete approximate
  | snowflake | databricks => approximatePercentile? "APPROX_PERCENTILE" discrete approximate

end Dialect

end MetricSql
