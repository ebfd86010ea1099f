import MetricSql.Document.Decode
import MetricSql.Profile

/-!
# Profiles as documents

Every field may be left out.
-/

namespace MetricSql

open Document

namespace Dialect

def encode (dialect : Dialect) : Value := .string dialect.name

def decode (rules : Rules) : Decoder Dialect := Decode.choice rules (all.map fun d => (d.name, d))

end Dialect

namespace QuotePolicy

def encode (policy : QuotePolicy) : Value := .string policy.name

def decode (rules : Rules) : Decoder QuotePolicy := Decode.choice rules (all.map fun p => (p.name, p))

end QuotePolicy

namespace DivisionStyle

def encode (style : DivisionStyle) : Value := .string style.name

def decode (rules : Rules) : Decoder DivisionStyle := Decode.choice rules (all.map fun s => (s.name, s))

end DivisionStyle

namespace Profile

def encode (profile : Profile) : Value :=
  .present [some ("dialect", profile.dialect.encode), some ("quoting", profile.quoting.encode),
    Value.field? "division" DivisionStyle.encode profile.division,
    some ("stage_comments", .bool profile.stageComments)]

def decode (rules : Rules) : Decoder Profile
  | 0, _ => none
  | room + 1, value => do
    let given ← Decode.fields rules ["dialect", "quoting", "division", "stage_comments"] value
    let usual : Profile := {}
    let dialect ← Decode.withDefault given "dialect" usual.dialect (Dialect.decode rules room)
    let quoting ← Decode.withDefault given "quoting" usual.quoting (QuotePolicy.decode rules room)
    let division ← Decode.optional given "division" (DivisionStyle.decode rules room)
    let stageComments ← Decode.withDefault given "stage_comments" usual.stageComments Decode.bool
    return { dialect, quoting, division, stageComments }

end Profile

end MetricSql
