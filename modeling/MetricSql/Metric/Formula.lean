/-!
# Metric formulas

A formula is arithmetic over aggregated columns: measures, or metrics of an earlier stage.
-/

namespace MetricSql

inductive Operator where
  | add
  | sub
  | mul
  | div
deriving Repr, DecidableEq

namespace Operator

def name : Operator → String
  | add => "add"
  | sub => "sub"
  | mul => "mul"
  | div => "div"

def all : List Operator := [add, sub, mul, div]

end Operator

inductive Formula where
  | input (name : String)
  | literal (value : Float)
  | neg (operand : Formula)
  | binary (operator : Operator) (left right : Formula)
  /-- Division of floating-point numbers. -/
  | ratio (numerator denominator : Formula)
deriving Repr, BEq

namespace Formula

/-- The list with the names at its end that it does not hold yet. -/
def addInputs (names : List String) : Formula → List String
  | input name => if names.contains name then names else names ++ [name]
  | literal _ => names
  | neg operand => operand.addInputs names
  | binary _ left right => right.addInputs (left.addInputs names)
  | ratio numerator denominator => denominator.addInputs (numerator.addInputs names)

/-- The inputs of the formula, each once, in the order of first use. -/
def inputs (formula : Formula) : List String := formula.addInputs []

end Formula

structure Metric where
  name : String
  formula : Formula
  description : Option String := none
deriving Repr, BEq

namespace Metric

/-- A metric that shows one measure. -/
def ofMeasure (name measure : String) : Metric := { name, formula := .input measure }

/-- A metric that divides one measure by another. -/
def ofRatio (name numerator denominator : String) : Metric :=
  { name, formula := .ratio (.input numerator) (.input denominator) }

def inputs (metric : Metric) : List String := metric.formula.inputs

end Metric

end MetricSql
