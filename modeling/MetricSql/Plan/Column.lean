import MetricSql.Expr.Basic
import MetricSql.Failure

/-!
# Columns of a stage

Every stage of a plan has named columns, each defined by an expression over the stage below it.
-/

namespace MetricSql

inductive ColumnRole where
  | entity
  | dimension
  | timeDimension
  /-- The value of a measure in a row, or its aggregate above an aggregation. -/
  | measure
  | metric
deriving Repr, DecidableEq

/-- Whether rows can be grouped by the column. -/
def ColumnRole.isGroupable : ColumnRole → Bool
  | entity | dimension | timeDimension => true
  | measure | metric => false

structure Column where
  name : String
  expr : Expr
  role : ColumnRole
  dataType : Option DataType
deriving Repr, BEq

/-- The same column, taken by name from the relation `aliasName`. -/
def Column.through (aliasName : String) (column : Column) : Column :=
  { column with expr := .of aliasName column.name }

/-- The first name that occurs in `seen` or earlier in the list. -/
def firstRepeated? (seen : List String) : List String → Option String
  | [] => none
  | name :: rest => if name ∈ seen then some name else firstRepeated? (name :: seen) rest

/-- Nothing is repeated exactly when the names are distinct and new. -/
theorem firstRepeated?_eq_none_iff (seen names : List String) :
    firstRepeated? seen names = none ↔ names.Nodup ∧ ∀ name ∈ names, name ∉ seen := by
  induction names generalizing seen with
  | nil => simp [firstRepeated?]
  | cons name rest ih =>
    by_cases hmem : name ∈ seen
    · simp [firstRepeated?, hmem]
    · simp only [firstRepeated?, hmem, if_false, ih, List.nodup_cons]
      constructor
      · rintro ⟨hnodup, hrest⟩
        refine ⟨⟨fun h => hrest name h List.mem_cons_self, hnodup⟩, fun other h hseen => ?_⟩
        rcases List.mem_cons.1 h with rfl | h
        · exact hmem hseen
        · exact hrest other h (List.mem_cons_of_mem _ hseen)
      · rintro ⟨⟨hnot, hnodup⟩, hrest⟩
        refine ⟨hnodup, fun other h hseen => ?_⟩
        rcases List.mem_cons.1 hseen with rfl | hseen
        · exact hnot h
        · exact hrest other (List.mem_cons_of_mem _ h) hseen

/-- Refuses columns with equal names. -/
def ensureUnique (stage : Stage) (columns : List Column) : Except Failure Unit :=
  match firstRepeated? [] (columns.map (·.name)) with
  | some name => .error (.duplicateColumn stage name)
  | none => .ok ()

end MetricSql
