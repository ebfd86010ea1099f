import MetricSql.Plan.Alias
import MetricSql.Plan.Basic
import MetricSql.Request
import MetricSql.Text.Identifier
import MetricSql.Text.Nearest

/-!
# Reading a model

The lowest stage selects elements of one model from its table.
-/

namespace MetricSql

/-- A column of the table when the expression is a plain identifier, else the expression as it stands. -/
def Expr.physical (tableAlias expression : String) : Expr :=
  if Text.isPlain expression then .of tableAlias expression else .raw expression

namespace Model

def unresolved (model : Model) (name : String) : Failure :=
  .unresolvedElement .read ("semantic model '" ++ model.name ++ "'") name
    (Text.nearest? name model.elementNames)

/-- Refuses to truncate what is not a time dimension, or to a grain finer than the stored one. -/
def checkGrain (element : Element) (name : String) (grain : Grain) : Except Failure Unit :=
  match element with
  | .dimension dimension =>
    match dimension.finestGrain? with
    | some finest =>
      if grain.finer finest then
        .error (.invalidGrain name grain ("finer than its defined granularity '" ++ finest.name ++ "'"))
      else if !dimension.dataType.isTemporal then
        .error (.invalidGrain name grain ("type " ++ dimension.dataType.name ++ " is not temporal"))
      else .ok ()
    | none => .error (.invalidGrain name grain "not a time dimension")
  | _ => .error (.invalidGrain name grain "not a time dimension")

def checkGrain? (element : Element) (ref : ElementRef) : Except Failure Unit :=
  match ref.grain with
  | some grain => checkGrain element ref.name grain
  | none => .ok ()

/-- The column that holds an element. -/
def elementColumn (tableAlias : String) (ref : ElementRef) : Element → Column
  | .entity entity => ⟨ref.name, .physical tableAlias entity.column, .entity, some entity.dataType⟩
  | .dimension dimension =>
    let column := Expr.physical tableAlias dimension.column
    match ref.grain with
    | some grain => ⟨ref.columnName, .dateTrunc grain column, .timeDimension, some dimension.dataType⟩
    | none =>
      ⟨ref.name, column, if dimension.isTime then .timeDimension else .dimension, some dimension.dataType⟩
  | .measure measure =>
    let expr :=
      match measure.source with
      | .column expression => Expr.physical tableAlias expression
      | .constant value => .int value
    ⟨ref.name, expr, .measure, measure.rowType⟩

def bindElement (model : Model) (tableAlias : String) (ref : ElementRef) : Except Failure Column :=
  match model.element? ref.name with
  | none => .error (model.unresolved ref.name)
  | some element => do
    checkGrain? element ref
    return elementColumn tableAlias ref element

/-- The columns of the elements, in order. -/
def bindAll (model : Model) (tableAlias : String) (elements : List ElementRef) :
    Except Failure (List Column) := do
  let columns ← elements.mapM (model.bindElement tableAlias)
  ensureUnique .read columns
  return columns

/-- A stage that selects exactly the elements, in order.  The alias of the table is taken even if an element
cannot be bound. -/
def read (model : Model) (elements : List ElementRef) (supply : AliasSupply) :
    Except Failure Plan × AliasSupply :=
  if elements.isEmpty then (.error (.emptyQuery .read), supply)
  else
    let (tableAlias, supply) := supply.table model.name
    match model.bindAll tableAlias elements with
    | .error failure => (.error failure, supply)
    | .ok columns =>
      let (aliasName, supply) := supply.subquery
      (.ok (.read aliasName model.name model.table tableAlias columns), supply)

end Model

end MetricSql
