import MetricSql.Plan.Render
import MetricSql.Proofs.Formula.Arithmetic

/-!
# The rows of a query

What a query selects from the tables of a warehouse.  A table is a finite bag of
rows, written as a list; null is the missing value, conditions have three truth
values, and only rows for which all conditions are true are joined.  What SQL
leaves to the warehouse (truncation, functions, raw expressions) is a parameter.
-/

namespace MetricSql

/-- A value that is not null. -/
inductive Datum where
  | number (x : ℚ)
  | text (s : String)
  /-- A date or a timestamp, as a point on the time line. -/
  | moment (t : ℚ)
  | truth (b : Bool)
deriving DecidableEq

/-- The contents of a column in a row. -/
abbrev Cell := Option Datum

/-- The named cells of a row. -/
abbrev Row := List (String × Cell)

/-- The row of each relation of a query, under the alias of the relation. -/
abbrev Scope := List (String × Row)

/-- The only entry of a name, none when there are several or no such entries. -/
def only? {α : Type} (entries : List (String × α)) (name : String) : Option α :=
  match entries.filter (·.1 == name) with
  | [entry] => some entry.2
  | _ => none

/-- The cell of a name.  A name that is not there, or not unique, has no value. -/
def Row.cell (row : Row) (name : String) : Cell := (only? row name).getD none

namespace Scope

def cell (scope : Scope) (aliasName name : String) : Cell :=
  match only? scope aliasName with
  | some row => row.cell name
  | none => none

/-- The cell of a name without a qualifier. -/
def anyCell (scope : Scope) (name : String) : Cell := Row.cell (scope.flatMap Prod.snd) name

end Scope

/-! ## Operators -/

namespace Datum

/-- Whether one value is less than another; values of different kinds do not
compare. -/
def less? : Datum → Datum → Option Bool
  | number x, number y => some (x < y)
  | text s, text t => some (s < t)
  | moment s, moment t => some (s < t)
  | truth a, truth b => some (!a && b)
  | _, _ => none

def number? : Datum → Option ℚ
  | number x => some x
  | _ => none

def truth? : Datum → Option Bool
  | truth b => some b
  | _ => none

end Datum

/-- Conjunction with three truth values. -/
def both : Option Bool → Option Bool → Option Bool
  | some false, _ => some false
  | _, some false => some false
  | some true, some true => some true
  | _, _ => none

/-- Disjunction with three truth values. -/
def either : Option Bool → Option Bool → Option Bool
  | some true, _ => some true
  | _, some true => some true
  | some false, some false => some false
  | _, _ => none

namespace Cell

def number? (cell : Cell) : Option ℚ := cell.bind Datum.number?

def truth? (cell : Cell) : Option Bool := cell.bind Datum.truth?

def ofNumber? (x : Option ℚ) : Cell := x.map .number

def ofTruth? (b : Option Bool) : Cell := b.map .truth

end Cell

/-- Arithmetic is null where an operand is null or no number, or where the
denominator is zero. -/
def BinaryOp.cell (op : BinaryOp) (a b : Cell) : Cell :=
  match op with
  | .eq => .ofTruth? do return decide ((← a) = (← b))
  | .gtEq => .ofTruth? do return !(← Datum.less? (← a) (← b))
  | .lt => .ofTruth? do Datum.less? (← a) (← b)
  | .and => .ofTruth? (both a.truth? b.truth?)
  | .or => .ofTruth? (either a.truth? b.truth?)
  | .add => .ofNumber? (Operator.add.value a.number? b.number?)
  | .sub => .ofNumber? (Operator.sub.value a.number? b.number?)
  | .mul => .ofNumber? (Operator.mul.value a.number? b.number?)
  | .div => .ofNumber? (Operator.div.value a.number? b.number?)

/-! ## Expressions -/

/-- The tables, and what SQL leaves to the warehouse. -/
structure Warehouse where
  rows : Table → List Row
  truncate : Grain → Cell → Cell
  /-- A function of one row. -/
  function : String → List Cell → Cell
  /-- An aggregate other than the sum. -/
  aggregate : String → List Cell → Cell
  percentile : Float → Bool → Bool → List Cell → Cell
  raw : String → Scope → Cell

def aggregateNames : List String := ["SUM", "COUNT", "AVG", "MIN", "MAX"]

/-- The sum of the numbers, null when there are none. -/
def Cell.sum (cells : List Cell) : Cell :=
  match cells.filterMap Cell.number? with
  | [] => none
  | numbers => some (.number numbers.sum)

def Warehouse.fold (w : Warehouse) (name : String) (distinct : Bool) (cells : List Cell) :
    Cell :=
  let cells := if distinct then cells.dedup else cells
  if name = "SUM" then Cell.sum cells else w.aggregate name cells

namespace Expr

def isAggregate : Expr → Bool
  | call name _ _ => aggregateNames.contains name
  | percentile .. => true
  | _ => false

mutual

/-- The value of an expression in a row; an aggregate is taken over the rows of
the group. -/
def cell (w : Warehouse) : List Scope → Scope → Expr → Cell
  | _, scope, column none name => scope.anyCell name
  | _, scope, column (some table) name => scope.cell table name
  | _, _, int n => some (.number n.toInt)
  | _, _, float x => some (.number (Decimal.value x))
  | group, scope, binary op left right =>
    op.cell (cell w group scope left) (cell w group scope right)
  | group, scope, neg operand =>
    .ofNumber? ((cell w group scope operand).number?.map Neg.neg)
  | group, scope, isNull operand => some (.truth (cell w group scope operand).isNone)
  | group, scope, call name args distinct =>
    if aggregateNames.contains name then
      w.fold name distinct (group.flatMap fun row => argCells w [row] row args)
    else w.function name (argCells w group scope args)
  | group, scope, case branches otherwise =>
    branchCell w group scope branches (otherwiseCell w group scope otherwise)
  | group, scope, paren inner => cell w group scope inner
  | group, scope, castFloat inner => cell w group scope inner
  | group, scope, safeDivide numerator denominator =>
    BinaryOp.div.cell (cell w group scope numerator) (cell w group scope denominator)
  | group, scope, dateTrunc grain inner => w.truncate grain (cell w group scope inner)
  | group, _, percentile inner fraction discrete approximate =>
    w.percentile fraction discrete approximate (group.map fun row => cell w [row] row inner)
  | _, scope, raw sql => w.raw sql scope

def argCells (w : Warehouse) : List Scope → Scope → List Expr → List Cell
  | _, _, [] => []
  | group, scope, arg :: rest => cell w group scope arg :: argCells w group scope rest

/-- The result of the first branch whose condition is true. -/
def branchCell (w : Warehouse) : List Scope → Scope → List (Expr × Expr) → Cell → Cell
  | _, _, [], otherwise => otherwise
  | group, scope, (condition, result) :: rest, otherwise =>
    if (cell w group scope condition).truth? = some true then cell w group scope result
    else branchCell w group scope rest otherwise

def otherwiseCell (w : Warehouse) : List Scope → Scope → Option Expr → Cell
  | _, _, none => none
  | group, scope, some e => cell w group scope e

end

/-- Whether a condition is true in a row; unknown is not enough. -/
def holds (w : Warehouse) (scope : Scope) (e : Expr) : Bool :=
  (e.cell w [scope] scope).truth? = some true

end Expr

/-! ## Queries -/

/-- The name under which an item is selected. -/
def SelectItem.columnName (item : SelectItem) : String :=
  match item.aliasName, item.expr with
  | some name, _ => name
  | none, .column _ name => name
  | none, _ => ""

def selectRow (w : Warehouse) (select : List SelectItem) (group : List Scope)
    (scope : Scope) : Row :=
  select.map fun item => (item.columnName, item.expr.cell w group scope)

def isGrouped (select : List SelectItem) (groupBy : List Expr) : Bool :=
  !groupBy.isEmpty || select.any fun item => item.expr.parts.any Expr.isAggregate

/-- The rows that agree on the group keys, nulls being equal; all rows when there
are no keys. -/
def groupsOf (w : Warehouse) (groupBy : List Expr) (scopes : List Scope) :
    List (List Scope) :=
  let key (scope : Scope) := groupBy.map (Expr.cell w [scope] scope)
  if groupBy.isEmpty then [scopes]
  else (scopes.map key).dedup.map fun k => scopes.filter fun scope => key scope = k

def project (w : Warehouse) (select : List SelectItem) (groupBy : List Expr)
    (scopes : List Scope) : List Row :=
  if isGrouped select groupBy then
    (groupsOf w groupBy scopes).map fun group => selectRow w select group (group.headD [])
  else scopes.map fun scope => selectRow w select [scope] scope

/-- One row of the left side with all rows of the right side for which the
conditions hold.  An outer join keeps a row without a partner, beside a row in
which every column is null. -/
def joinRow (w : Warehouse) (kind : JoinKind) (on : List Expr) (aliasName : String)
    (right : List Row) (scope : Scope) : List Scope :=
  let joined := (right.map fun row => scope ++ [(aliasName, row)]).filter fun extended =>
    on.all (Expr.holds w extended)
  if kind = .leftOuter ∧ joined = [] then [scope ++ [(aliasName, [])]] else joined

mutual

/-- The rows that a query selects. -/
def Query.rows (w : Warehouse) : Query → List Row
  | ⟨_, select, source, joins, groupBy⟩ =>
    project w select groupBy (joinedScopes w (sourceScopes w source) joins)

def sourceScopes (w : Warehouse) : Option Relation → List Scope
  | none => [[]]
  | some relation => (relation.rows w).map fun row => [(relation.aliasName, row)]

def Relation.rows (w : Warehouse) : Relation → List Row
  | .table ref => w.rows ⟨ref.schema, ref.table⟩
  | .subquery query _ => query.rows w

def Relation.aliasName : Relation → String
  | .table ref => ref.aliasName
  | .subquery _ aliasName => aliasName

/-- Relations are joined from left to right. -/
def joinedScopes (w : Warehouse) (left : List Scope) : List Join → List Scope
  | [] => left
  | ⟨kind, relation, on⟩ :: rest =>
    joinedScopes w
      (left.flatMap (joinRow w kind on relation.aliasName (relation.rows w))) rest

end

/-! ## Looking up names -/

theorem only?_of_mem {α : Type} {entries : List (String × α)} {name : String} {a : α}
    (hnodup : (entries.map Prod.fst).Nodup) (h : (name, a) ∈ entries) :
    only? entries name = some a := by
  have hfilter : entries.filter (·.1 == name) = [(name, a)] := by
    induction entries with
    | nil => cases h
    | cons entry rest ih =>
        rw [List.map_cons, List.nodup_cons] at hnodup
        rcases List.mem_cons.mp h with rfl | h
        · have hrest : rest.filter (·.1 == name) = [] := by
            rw [List.filter_eq_nil_iff]
            intro other hother heq
            apply hnodup.1
            exact List.mem_map.mpr ⟨other, hother, by simpa using heq⟩
          simp [hrest]
        · have hne : entry.1 ≠ name := by
            intro heq
            apply hnodup.1
            rw [heq]
            exact List.mem_map_of_mem h
          simp [hne, ih hnodup.2 h]
  simp [only?, hfilter]

@[simp] theorem Row.cell_nil (name : String) : Row.cell [] name = none := rfl

theorem Row.cell_of_mem {row : Row} {name : String} {cell : Cell}
    (hnodup : (row.map Prod.fst).Nodup) (h : (name, cell) ∈ row) :
    row.cell name = cell := by
  rw [Row.cell, only?_of_mem hnodup h]
  rfl

theorem Scope.cell_of_mem {scope : Scope} {aliasName : String} {row : Row}
    (hnodup : (scope.map Prod.fst).Nodup) (h : (aliasName, row) ∈ scope)
    (name : String) : scope.cell aliasName name = row.cell name := by
  rw [Scope.cell, only?_of_mem hnodup h]

theorem Scope.cell_concat_of_ne {scope : Scope} {aliasName other : String} {row : Row}
    (h : other ≠ aliasName) (name : String) :
    Scope.cell (scope ++ [(other, row)]) aliasName name = scope.cell aliasName name := by
  simp [Scope.cell, only?, List.filter_append, h]

theorem Scope.cell_concat {scope : Scope} {aliasName : String} {row : Row}
    (h : aliasName ∉ scope.map Prod.fst) (name : String) :
    Scope.cell (scope ++ [(aliasName, row)]) aliasName name = row.cell name := by
  have hnone : scope.filter (·.1 == aliasName) = [] := by
    rw [List.filter_eq_nil_iff]
    intro entry hentry heq
    apply h
    exact List.mem_map.mpr ⟨entry, hentry, by simpa using heq⟩
  simp [Scope.cell, only?, List.filter_append, hnone]

@[simp] theorem Expr.cell_of (w : Warehouse) (group : List Scope) (scope : Scope)
    (table name : String) :
    (Expr.of table name).cell w group scope = scope.cell table name := by
  rw [Expr.of, Expr.cell]

/-! ## Conditions -/

namespace Expr

variable {w : Warehouse} {scope : Scope} {left right : Expr}

attribute [local simp] cell BinaryOp.cell Cell.ofTruth? Cell.truth? Datum.truth?

theorem holds_eq :
    (binary .eq left right).holds w scope = true ↔
      ∃ v, left.cell w [scope] scope = some v ∧ right.cell w [scope] scope = some v := by
  rw [holds, cell]
  cases left.cell w [scope] scope with
  | none => simp
  | some a =>
      cases right.cell w [scope] scope with
      | none => simp
      | some b =>
          simp [eq_comm]

theorem holds_gtEq :
    (binary .gtEq left right).holds w scope = true ↔
      ∃ a b, left.cell w [scope] scope = some a ∧ right.cell w [scope] scope = some b ∧
        Datum.less? a b = some false := by
  rw [holds, cell]
  cases left.cell w [scope] scope with
  | none => simp
  | some a =>
      cases right.cell w [scope] scope with
      | none => simp
      | some b =>
          cases hless : Datum.less? a b <;>
            simp [hless]

theorem holds_lt :
    (binary .lt left right).holds w scope = true ↔
      ∃ a b, left.cell w [scope] scope = some a ∧ right.cell w [scope] scope = some b ∧
        Datum.less? a b = some true := by
  rw [holds, cell]
  cases left.cell w [scope] scope with
  | none => simp
  | some a =>
      cases right.cell w [scope] scope with
      | none => simp
      | some b =>
          cases hless : Datum.less? a b <;>
            simp [hless]

theorem holds_or :
    (binary .or left right).holds w scope = true ↔
      left.holds w scope = true ∨ right.holds w scope = true := by
  have htruth : ∀ b, (Cell.ofTruth? b).truth? = b := by
    intro b
    cases b <;> rfl
  have heither : ∀ a b, either a b = some true ↔ a = some true ∨ b = some true := by
    decide
  rw [holds, cell, BinaryOp.cell, htruth, decide_eq_true_eq, heither]
  simp only [holds, decide_eq_true_eq]

theorem holds_isNull {operand : Expr} :
    (isNull operand).holds w scope = true ↔ operand.cell w [scope] scope = none := by
  simp [holds]

end Expr

/-- The time is not before the start, and before the end unless that is open.  A
row without a start is never valid. -/
def within (start stop : Cell) (time : Datum) : Bool :=
  start.any (fun s => Datum.less? time s = some false) &&
    stop.all fun e => Datum.less? time e = some true

theorem Plan.keyCondition_holds {w : Warehouse} {scope : Scope} {right : String}
    {key : KeyMatch} :
    (keyCondition right key).holds w scope = true ↔
      ∃ value, scope.cell key.leftAlias key.leftColumn = some value ∧
        scope.cell right key.rightColumn = some value := by
  rw [keyCondition, Expr.holds_eq, Expr.cell_of, Expr.cell_of]

theorem Plan.conditions_hold {w : Warehouse} {scope : Scope} {right : String} {key : KeyMatch}
    {window : Option WindowMatch} :
    (conditions right [key] window).all (Expr.holds w scope) = true ↔
      (keyCondition right key).holds w scope = true ∧
        ∀ found, window = some found → ∀ condition ∈ windowConditions right found,
          condition.holds w scope = true := by
  cases window <;> simp [conditions, List.all_eq_true]

theorem Plan.windowConditions_hold {w : Warehouse} {scope : Scope} {right : String}
    {window : WindowMatch} :
    (∀ condition ∈ windowConditions right window, condition.holds w scope = true) ↔
      ∃ time, scope.cell window.leftAlias window.leftColumn = some time ∧
        within (scope.cell right window.startColumn)
          (scope.cell right window.stopColumn) time = true := by
  have hparen : ∀ e : Expr, e.paren.holds w scope = e.holds w scope := by
    intro e
    rw [Expr.holds, Expr.cell, Expr.holds]
  have hconditions : (∀ condition ∈ windowConditions right window,
        condition.holds w scope = true) ↔
      (Expr.binary .gtEq (.of window.leftAlias window.leftColumn)
          (.of right window.startColumn)).holds w scope = true ∧
        (Expr.binary .or (.binary .lt (.of window.leftAlias window.leftColumn)
          (.of right window.stopColumn))
          (.isNull (.of right window.stopColumn))).holds w scope = true := by
    simp only [windowConditions, Expr.asOperand, Expr.isCompound, if_true,
      List.mem_cons, List.not_mem_nil, or_false, forall_eq_or_imp, forall_eq, hparen]
  rw [hconditions, Expr.holds_gtEq, Expr.holds_or, Expr.holds_lt, Expr.holds_isNull]
  simp only [Expr.cell_of, within, Bool.and_eq_true, Option.any_eq_true]
  cases hstop : scope.cell right window.stopColumn with
  | none =>
      constructor
      · rintro ⟨⟨time, start, htime, hstart, hless⟩, -⟩
        exact ⟨time, htime, ⟨start, hstart, by simpa using hless⟩, rfl⟩
      · rintro ⟨time, htime, ⟨start, hstart, hless⟩, -⟩
        exact ⟨⟨time, start, htime, hstart, by simpa using hless⟩, .inr rfl⟩
  | some stop =>
      constructor
      · rintro ⟨⟨time, start, htime, hstart, hless⟩, ⟨time', stop', htime', hstop', hlt⟩ | hnone⟩
        · rw [htime] at htime'
          cases htime'
          cases hstop'
          exact ⟨time, htime, ⟨start, hstart, by simpa using hless⟩, by simpa using hlt⟩
        · cases hnone
      · rintro ⟨time, htime, ⟨start, hstart, hless⟩, hlt⟩
        exact ⟨⟨time, start, htime, hstart, by simpa using hless⟩,
          .inl ⟨time, stop, htime, rfl, by simpa using hlt⟩⟩

/-! ## Selecting without groups -/

@[simp] theorem SelectItem.named_expr (e : Expr) (name : String) :
    (SelectItem.named e name).expr = e := by
  unfold SelectItem.named
  split
  next => split <;> rfl
  next => rfl

@[simp] theorem SelectItem.named_columnName (e : Expr) (name : String) :
    (SelectItem.named e name).columnName = name := by
  unfold SelectItem.named
  split
  next table column =>
    split
    next heq => exact heq
    next => rfl
  next => rfl

/-- Columns without aggregates are computed row by row. -/
theorem project_selectItems {w : Warehouse} {columns : List Column}
    {scopes : List Scope}
    (h : ∀ column ∈ columns, ∀ part ∈ column.expr.parts, part.isAggregate = false) :
    project w (Plan.selectItems columns) [] scopes =
      scopes.map fun scope =>
        columns.map fun column => (column.name, column.expr.cell w [scope] scope) := by
  have hgrouped : isGrouped (Plan.selectItems columns) [] = false := by
    simpa [isGrouped, Plan.selectItems] using h
  rw [project, hgrouped]
  simp [selectRow, Plan.selectItems]

/-! ## Joins that look up one row -/

/-- The rows of the right side for which the conditions hold. -/
def partners (w : Warehouse) (on : List Expr) (aliasName : String) (right : List Row)
    (scope : Scope) : List Row :=
  right.filter fun row => on.all (Expr.holds w (scope ++ [(aliasName, row)]))

/-- An outer join with at most one partner gives one row. -/
theorem joinRow_leftOuter {w : Warehouse} {on : List Expr} {aliasName : String}
    {right : List Row} {scope : Scope}
    (h : (partners w on aliasName right scope).length ≤ 1) :
    joinRow w .leftOuter on aliasName right scope =
      [scope ++ [(aliasName, (partners w on aliasName right scope).headD [])]] := by
  have hjoined : ((right.map fun row => scope ++ [(aliasName, row)]).filter
      fun extended => on.all (Expr.holds w extended)) =
      (partners w on aliasName right scope).map fun row => scope ++ [(aliasName, row)] := by
    rw [List.filter_map]
    rfl
  rw [joinRow, hjoined]
  cases hpartners : partners w on aliasName right scope with
  | nil => simp
  | cons row rest =>
      rw [hpartners] at h
      have hrest : rest = [] := List.length_eq_zero_iff.mp (by simpa using h)
      simp [hrest]

end MetricSql
