import MetricSql.Plan.Build
import MetricSql.Plan.Render
import MetricSql.Statement.Shape

/-!
# Compilation

From a request to SQL: the request is planned, the plan is written, and the text is read back if asked for.
-/

namespace MetricSql

structure CompileOptions where
  profile : Profile := {}
  /-- Whether the SQL is read back, which fails unless it is one statement. -/
  validateOutput : Bool := false
deriving Repr, DecidableEq

structure Compiled where
  sql : String
  plan : Plan
  profile : Profile

/-- Writes a plan as SQL. -/
def Plan.compile (plan : Plan) (options : CompileOptions) : Except Failure Compiled := do
  let sql ← options.profile.render plan
  if options.validateOutput then options.profile.dialect.validate sql
  return { sql, plan, profile := options.profile }

/-- Plans a request and writes it as SQL. -/
def Manifest.compile (manifest : Manifest) (request : Request) (options : CompileOptions) :
    Except Failure Compiled := do
  let plan ← manifest.plan request
  plan.compile options

end MetricSql
