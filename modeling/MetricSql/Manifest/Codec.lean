import MetricSql.Manifest.Basic
import MetricSql.Metric.Codec
import MetricSql.Schema.Codec

/-!
# Manifests as documents
-/

namespace MetricSql.Manifest

open Document

def encode (manifest : Manifest) : Value :=
  .record [("semantic_models", .list (manifest.models.map Model.encode)),
    ("metrics", .list (manifest.metrics.map Metric.encode))]

def decode : Decoder Manifest
  | 0, _ => none
  | room + 1, value => do
    let given ← Decode.fields Json.rules ["semantic_models", "metrics"] value
    let models ← Decode.withDefault given "semantic_models" [] (Decode.list Model.decode room)
    let metrics ← Decode.withDefault given "metrics" [] (Decode.list Metric.decode room)
    return { models, metrics }

end MetricSql.Manifest
