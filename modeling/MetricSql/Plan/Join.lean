import MetricSql.Naming
import MetricSql.Plan.Alias
import MetricSql.Plan.Basic

/-!
# Joining stages

Relations are joined one after the other onto a primary relation.  A later relation may be joined on a column
that an earlier one has contributed.
-/

namespace MetricSql

/-- How many rows of a target belong to a row of the left side. -/
inductive JoinRole where
  /-- At most one, whose attributes are looked up: rows of the left side are kept. -/
  | dimension
  /-- Exactly one for the rows that are kept. -/
  | equivalent
deriving Repr, DecidableEq

def JoinRole.kind : JoinRole → JoinKind
  | dimension => .leftOuter
  | equivalent => .inner

/-- A column of the left side and the two columns of the target around it. -/
structure WindowJoin where
  time : String
  start : String
  stop : String
deriving Repr, DecidableEq

/-- A relation to be joined. -/
structure JoinTarget where
  node : Plan
  keys : List String
  role : JoinRole := .dimension
  qualifier : Option String := none
  window : Option WindowJoin := none
deriving Repr, BEq

/-- A column of the accumulated left side and the relation it comes from. -/
structure LeftColumn where
  name : String
  aliasName : String
  column : String
  role : ColumnRole
  dataType : Option DataType
deriving Repr, DecidableEq

namespace LeftColumn

/-- A column of a relation, under a name of its own. -/
def ofColumn (aliasName : String) (rename : String → String) (column : Column) : LeftColumn :=
  ⟨rename column.name, aliasName, column.name, column.role, column.dataType⟩

def toColumn (left : LeftColumn) : Column :=
  ⟨left.name, .of left.aliasName left.column, left.role, left.dataType⟩

def find? (left : List LeftColumn) (name : String) : Option LeftColumn :=
  List.find? (·.name == name) left

end LeftColumn

namespace JoinTarget

/-- The name under which a column of the target is taken over. -/
def rename (target : JoinTarget) (name : String) : String :=
  match target.qualifier with
  | some qualifier => qualified qualifier name
  | none => name

/-- The columns of the target that are not keys. -/
def contributed (target : JoinTarget) : List Column :=
  target.node.columns.filter fun column => !target.keys.contains column.name

/-- The two columns of a key, whose types must not be known to differ. -/
def matchKey (primary : String) (left : List LeftColumn) (target : JoinTarget) (key : String) :
    Except Failure KeyMatch :=
  match LeftColumn.find? left key with
  | none => .error (.unresolvedJoinKey key .left primary)
  | some l =>
    match target.node.column? key with
    | none => .error (.unresolvedJoinKey key .right target.node.aliasName)
    | some r =>
      match l.dataType, r.dataType with
      | some leftType, some rightType =>
        if leftType = rightType then .ok ⟨key, l.aliasName, l.column, key⟩
        else .error (.joinKeyTypes key leftType rightType)
      | _, _ => .ok ⟨key, l.aliasName, l.column, key⟩

def requireColumn (target : JoinTarget) (name : String) : Except Failure Unit :=
  match target.node.column? name with
  | some _ => .ok ()
  | none => .error (.unresolvedJoinKey name .right target.node.aliasName)

def matchWindow (primary : String) (left : List LeftColumn) (target : JoinTarget) :
    Except Failure (Option WindowMatch) :=
  match target.window with
  | none => .ok none
  | some window =>
    match LeftColumn.find? left window.time with
    | none => .error (.unresolvedJoinKey window.time .left primary)
    | some time => do
      target.requireColumn window.start
      target.requireColumn window.stop
      return some ⟨time.aliasName, time.column, window.start, window.stop⟩

/-- The left side with the columns of a target at its end; a name that is taken is refused. -/
def contribute (target : JoinTarget) : List LeftColumn → List Column → Except Failure (List LeftColumn)
  | left, [] => .ok left
  | left, column :: rest =>
    let name := target.rename column.name
    match LeftColumn.find? left name with
    | some _ => .error (.duplicateColumn .join name)
    | none => target.contribute (left ++ [.ofColumn target.node.aliasName target.rename column]) rest

/-- One target joined onto the left side. -/
def attach (primary : String) (left : List LeftColumn) (target : JoinTarget) :
    Except Failure (List LeftColumn × Joined Plan) := do
  if target.keys.isEmpty then throw (.noJoinKeys target.node.aliasName)
  let keys ← target.keys.mapM (target.matchKey primary left)
  let window ← target.matchWindow primary left
  let left ← target.contribute left target.contributed
  return (left, ⟨target.node, target.role.kind, keys, window, target.qualifier⟩)

/-- All targets joined onto the left side, in order. -/
def attachAll (primary : String) :
    List LeftColumn → List JoinTarget → Except Failure (List LeftColumn × List (Joined Plan))
  | left, [] => .ok (left, [])
  | left, target :: rest => do
    let (left, joined) ← target.attach primary left
    let (left, others) ← attachAll primary left rest
    return (left, joined :: others)

end JoinTarget

namespace Plan

/-- The columns of a stage as the left side of a join. -/
def leftColumns (plan : Plan) : List LeftColumn :=
  plan.columns.map (.ofColumn plan.aliasName id)

/-- The relations and columns of a join. -/
def joinParts (primary : Plan) (targets : List JoinTarget) :
    Except Failure (List (Joined Plan) × List Column) := do
  let (left, joined) ← JoinTarget.attachAll primary.aliasName primary.leftColumns targets
  let columns := left.map LeftColumn.toColumn
  ensureUnique .join columns
  return (joined, columns)

/-- The targets joined onto the primary relation, which stays as it is when there are none. -/
def joinTargets (primary : Plan) (targets : List JoinTarget) (supply : AliasSupply) :
    Except Failure Plan × AliasSupply :=
  if targets.isEmpty then (.ok primary, supply)
  else
    match primary.joinParts targets with
    | .error failure => (.error failure, supply)
    | .ok (joined, columns) =>
      let (aliasName, supply) := supply.subquery
      (.ok (.join aliasName primary joined columns), supply)

end Plan

end MetricSql
