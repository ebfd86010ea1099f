/-!
# Statements

What SQL text says, as far as its shape matters.
-/

namespace MetricSql

/-- An expression as it is read. -/
inductive Term where
  /-- A column, perhaps qualified. -/
  | path (names : List String)
  | number (text : String)
  | string (text : String)
  | null
  | truth (value : Bool)
  | paren (inner : Term)
  | unary (op : String) (operand : Term)
  | binary (op : String) (left right : Term)
  | isNull (operand : Term) (negated : Bool)
  | call (function : List String) (distinct : Bool) (args : List Term) (order : Option Term)
  | case (operand : Option Term) (branches : List (Term × Term)) (otherwise : Option Term)
  | cast (operand : Term) (type : List String)
  | extract (part : String) (operand : Term)
deriving Repr, BEq, Inhabited

/-- The last name of a column, none for other expressions. -/
def Term.columnName? : Term → Option String
  | .path names => names.getLast?
  | _ => none

inductive Projection where
  /-- All columns, of one relation if it is named. -/
  | all (relation : List String)
  | term (shown : Term) (aliasName : Option String)
deriving Repr, BEq

/-- The name of the column that a projection gives, if it has one. -/
def Projection.columnName? : Projection → Option String
  | .all _ => none
  | .term _ (some aliasName) => some aliasName
  | .term shown none => shown.columnName?

/-- What a query groups by. -/
inductive GroupList where
  | terms (keys : List Term)
  | all
deriving Repr, BEq

/-- The names of the columns that are grouped by. -/
def GroupList.columnNames : GroupList → List String
  | .terms keys => keys.filterMap Term.columnName?
  | .all => []

mutual

inductive Body where
  | select (projections : List Projection) (factors : List Factor) (groupBy : GroupList)
  /-- Two queries under a set operation. -/
  | combined (left right : Body)

inductive Factor where
  | table (names : List String) (aliasName : Option String)
  | derived (body : Body) (aliasName : Option String)

end

inductive Statement where
  | query (body : Body)
  | dropTable (names : List String)

end MetricSql
