import MetricSql.Document.Json
import MetricSql.Metric.Formula

/-!
# Metrics as documents

How formulas and metrics are written as JSON values and read back.
-/

namespace MetricSql

open Document

namespace Operator

def encode (operator : Operator) : Value := .string operator.name

def decode : Decoder Operator := Decode.choice Json.rules (all.map fun o => (o.name, o))

end Operator

namespace Formula

def encode : Formula → Value
  | input name => .tagged "input" (.string name)
  | literal value => .tagged "literal" (Json.encodeFloat value)
  | neg operand => .tagged "neg" operand.encode
  | binary operator left right =>
    .tagged "binary" (.record [("op", operator.encode), ("left", left.encode), ("right", right.encode)])
  | ratio numerator denominator =>
    .tagged "ratio" (.record [("numerator", numerator.encode), ("denominator", denominator.encode)])

def decode : Decoder Formula
  | _ + 1, .record [("input", content)] => (Decode.string content).map input
  | _ + 1, .record [("literal", content)] => (Decode.float content).map literal
  | room + 1, .record [("neg", content)] => (decode room content).map neg
  | room + 2, .record [("binary", content)] => do
    let given ← Decode.fields Json.rules ["op", "left", "right"] content
    let operator ← Decode.required given "op" (Operator.decode room)
    let left ← Decode.required given "left" (decode room)
    let right ← Decode.required given "right" (decode room)
    return binary operator left right
  | room + 2, .record [("ratio", content)] => do
    let given ← Decode.fields Json.rules ["numerator", "denominator"] content
    let numerator ← Decode.required given "numerator" (decode room)
    let denominator ← Decode.required given "denominator" (decode room)
    return ratio numerator denominator
  | _, _ => none

end Formula

namespace Metric

def encode (metric : Metric) : Value :=
  .present [some ("name", .string metric.name), some ("expr", metric.formula.encode),
    Value.field? "description" .string metric.description]

def decode : Decoder Metric
  | 0, _ => none
  | room + 1, value => do
    let given ← Decode.fields Json.rules ["name", "expr", "description"] value
    let name ← Decode.required given "name" Decode.string
    let formula ← Decode.required given "expr" (Formula.decode room)
    let description ← Decode.optional given "description" Decode.string
    return { name, formula, description }

end Metric

end MetricSql
