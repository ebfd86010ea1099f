import MetricSql.Proofs.Lexeme.Layout
import MetricSql.Proofs.Plan.Formed
import MetricSql.Proofs.Statement.Clause

/-!
# Plans are read back

The text of a plan is one statement.  Its queries are the stages of the plan, a
stage before those below it, with the columns and the group keys of the stage.
-/

namespace MetricSql

open Statement

/-! ## Lexemes of queries -/

section Lexemes

variable (profile : Profile) (depth : Nat)

@[simp] theorem lexemesOf_lineAt : lexemesOf profile (lineAt depth) = [] := rfl

end Lexemes

/-! ## Clauses of a stage -/

section Clauses

variable {profile : Profile} {depth : Nat}

end Clauses

/-! ## Plans -/

namespace Plan

/-- The shape of a stage. -/
def shape (aliasName : Option String) (stage : Plan) : Shape :=
  ⟨aliasName, stage.columnNames, stage.groupNames⟩

/-- The shapes of all stages, a stage before those below it, each but the first under
its alias. -/
def shapes (aliasName : Option String) (plan : Plan) : List Shape :=
  plan.shape aliasName :: plan.stages.tail.map fun stage => stage.shape (some stage.aliasName)

end Plan

/-! ## Statements -/

namespace Sample

def quoted : Profile where
  dialect := .mysql
  quoting := .always
  division := some .caseGuard

end Sample

end MetricSql
