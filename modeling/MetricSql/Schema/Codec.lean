import MetricSql.Document.Json
import MetricSql.Schema.Model

/-!
# Models as documents

How the parts of a model are written as JSON values and read back.
-/

namespace MetricSql

open Document

namespace DataType

def encode (dataType : DataType) : Value := .string dataType.name

def decode : Decoder DataType := Decode.choice Json.rules (all.map fun t => (t.name, t))

end DataType

namespace Grain

def encode (grain : Grain) : Value := .string grain.name

def decode : Decoder Grain := Decode.choice Json.rules (all.map fun g => (g.name, g))

end Grain

namespace Table

def encode (table : Table) : Value :=
  .present [Value.field? "schema" .string table.schema, some ("name", .string table.name)]

def decode : Decoder Table
  | 0, _ => none
  | _ + 1, value => do
    let given ← Decode.fields Json.rules ["schema", "name"] value
    let schema ← Decode.optional given "schema" Decode.string
    let name ← Decode.required given "name" Decode.string
    return { schema, name }

end Table

namespace EntityKind

def encode (kind : EntityKind) : Value := .string kind.name

def decode : Decoder EntityKind := Decode.choice Json.rules (all.map fun k => (k.name, k))

end EntityKind

namespace Entity

def encode (entity : Entity) : Value :=
  .present [some ("name", .string entity.name), Value.field? "expr" .string entity.expression,
    some ("kind", entity.kind.encode), some ("data_type", entity.dataType.encode)]

def decode : Decoder Entity
  | 0, _ => none
  | room + 1, value => do
    let given ← Decode.fields Json.rules ["name", "expr", "kind", "data_type"] value
    let name ← Decode.required given "name" Decode.string
    let expression ← Decode.optional given "expr" Decode.string
    let kind ← Decode.required given "kind" (EntityKind.decode room)
    let dataType ← Decode.required given "data_type" (DataType.decode room)
    return { name, expression, kind, dataType }

end Entity

namespace DimensionKind

def encode (kind : DimensionKind) : Value := .string kind.name

def decode : Decoder DimensionKind := Decode.choice Json.rules (all.map fun k => (k.name, k))

end DimensionKind

namespace Dimension

def encode (dimension : Dimension) : Value :=
  .present [some ("name", .string dimension.name), Value.field? "expr" .string dimension.expression,
    some ("kind", dimension.kind.encode), some ("data_type", dimension.dataType.encode),
    Value.field? "granularity" Grain.encode dimension.grain]

def decode : Decoder Dimension
  | 0, _ => none
  | room + 1, value => do
    let given ← Decode.fields Json.rules ["name", "expr", "kind", "data_type", "granularity"] value
    let name ← Decode.required given "name" Decode.string
    let expression ← Decode.optional given "expr" Decode.string
    let kind ← Decode.required given "kind" (DimensionKind.decode room)
    let dataType ← Decode.required given "data_type" (DataType.decode room)
    let grain ← Decode.optional given "granularity" (Grain.decode room)
    return { name, expression, kind, dataType, grain }

end Dimension

namespace Aggregation

def encode : Aggregation → Value
  | percentile fraction discrete approximate =>
    .tagged "percentile" (.record [("percentile", Json.encodeFloat fraction), ("discrete", .bool discrete),
      ("approximate", .bool approximate)])
  | aggregation => .string aggregation.name

def decodePercentile : Decoder Aggregation
  | 0, _ => none
  | _ + 1, value => do
    let given ← Decode.fields Json.rules ["percentile", "discrete", "approximate"] value
    let fraction ← Decode.required given "percentile" Decode.float
    let discrete ← Decode.withDefault given "discrete" false Decode.bool
    let approximate ← Decode.withDefault given "approximate" false Decode.bool
    return percentile fraction discrete approximate

def decode : Decoder Aggregation
  | room + 1, .record [("percentile", content)] => decodePercentile room content
  | room, value => Decode.choice Json.rules (plain.map fun a => (a.name, a)) room value

end Aggregation

namespace MeasureSource

def encode : MeasureSource → Value
  | column expression => .tagged "column" (.string expression)
  | constant value => .tagged "constant" (.integer value.toInt)

def decode : Decoder MeasureSource
  | _ + 1, .record [("column", content)] => (Decode.string content).map column
  | _ + 1, .record [("constant", content)] => (Decode.int64 content).map constant
  | _, _ => none

end MeasureSource

namespace Measure

def encode (measure : Measure) : Value :=
  .present [some ("name", .string measure.name), some ("agg", measure.aggregation.encode),
    some ("expr", measure.source.encode), Value.field? "data_type" DataType.encode measure.dataType]

def decode : Decoder Measure
  | 0, _ => none
  | room + 1, value => do
    let given ← Decode.fields Json.rules ["name", "agg", "expr", "data_type"] value
    let name ← Decode.required given "name" Decode.string
    let aggregation ← Decode.required given "agg" (Aggregation.decode room)
    let source ← Decode.required given "expr" (MeasureSource.decode room)
    let dataType ← Decode.optional given "data_type" (DataType.decode room)
    return { name, aggregation, source, dataType }

end Measure

namespace ValidityWindow

def encode (window : ValidityWindow) : Value :=
  .record [("start", .string window.start), ("end", .string window.stop)]

def decode : Decoder ValidityWindow
  | 0, _ => none
  | _ + 1, value => do
    let given ← Decode.fields Json.rules ["start", "end"] value
    let start ← Decode.required given "start" Decode.string
    let stop ← Decode.required given "end" Decode.string
    return { start, stop }

end ValidityWindow

namespace Model

def encode (model : Model) : Value :=
  .present [some ("name", .string model.name), some ("table", model.table.encode),
    some ("entities", .list (model.entities.map Entity.encode)),
    some ("dimensions", .list (model.dimensions.map Dimension.encode)),
    some ("measures", .list (model.measures.map Measure.encode)),
    Value.field? "validity_window" ValidityWindow.encode model.window]

def decode : Decoder Model
  | 0, _ => none
  | room + 1, value => do
    let given ← Decode.fields Json.rules
      ["name", "table", "entities", "dimensions", "measures", "validity_window"] value
    let name ← Decode.required given "name" Decode.string
    let table ← Decode.required given "table" (Table.decode room)
    let entities ← Decode.withDefault given "entities" [] (Decode.list Entity.decode room)
    let dimensions ← Decode.withDefault given "dimensions" [] (Decode.list Dimension.decode room)
    let measures ← Decode.withDefault given "measures" [] (Decode.list Measure.decode room)
    let window ← Decode.optional given "validity_window" (ValidityWindow.decode room)
    return { name, table, entities, dimensions, measures, window }

end Model

end MetricSql
