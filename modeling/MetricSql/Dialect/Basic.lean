/-!
# Dialects

The warehouses that SQL is written for.
-/

namespace MetricSql

inductive Dialect where
  | duckdb
  | tsql
  | mysql
  | postgres
  | snowflake
  | bigquery
  | redshift
  | databricks
deriving Repr, DecidableEq

namespace Dialect

def name : Dialect → String
  | duckdb => "duckdb"
  | tsql => "tsql"
  | mysql => "mysql"
  | postgres => "postgres"
  | snowflake => "snowflake"
  | bigquery => "bigquery"
  | redshift => "redshift"
  | databricks => "databricks"

def all : List Dialect := [duckdb, tsql, mysql, postgres, snowflake, bigquery, redshift, databricks]

end Dialect

end MetricSql
