import MetricSql.Request
import MetricSql.Schema.Codec

/-!
# Requests as documents
-/

namespace MetricSql

open Document

namespace GroupItem

def encode (item : GroupItem) : Value :=
  .present [some ("name", .string item.name), Value.field? "via" .string item.via,
    Value.field? "grain" Grain.encode item.grain]

def decode : Decoder GroupItem
  | 0, _ => none
  | room + 1, value => do
    let given ← Decode.fields Json.rules ["name", "via", "grain"] value
    let name ← Decode.required given "name" Decode.string
    let via ← Decode.optional given "via" Decode.string
    let grain ← Decode.optional given "grain" (Grain.decode room)
    return { name, via, grain }

end GroupItem

namespace Request

def encode (request : Request) : Value :=
  .record [("metrics", .list (request.metrics.map .string)),
    ("group_by", .list (request.groupBy.map GroupItem.encode))]

def decode : Decoder Request
  | 0, _ => none
  | room + 1, value => do
    let given ← Decode.fields Json.rules ["metrics", "group_by"] value
    let metrics ← Decode.required given "metrics" (Decode.list (fun _ => Decode.string) room)
    let groupBy ← Decode.withDefault given "group_by" [] (Decode.list GroupItem.decode room)
    return { metrics, groupBy }

end Request

end MetricSql
