import MetricSql.Compile
import MetricSql.Document.Toml
import MetricSql.Profile.Codec

/-!
# Settings

The options of compilation as a TOML file: a table for the profile and one for the compiler.  Everything may be
left out.
-/

namespace MetricSql

open Document

structure Settings where
  profile : Profile := {}
  validateOutput : Bool := false
deriving Repr, DecidableEq

/-- What is found at a path. -/
inductive SettingsFile where
  | missing
  /-- Something that is not a text, such as a directory. -/
  | unreadable
  | text (content : String)

inductive SettingsError where
  | notFound (path : String)
  | unreadable
  | malformed
  | invalid (cause : Failure)
deriving Repr, BEq

namespace SettingsError

def message : SettingsError → String
  | notFound path => s!"Config file not found: {path}"
  | unreadable => "Failed to read config file"
  | malformed => "Failed to parse config file"
  | invalid cause => "Invalid configuration: " ++ cause.message

end SettingsError

namespace Settings

def encode (settings : Settings) : Value :=
  .record [("profile", settings.profile.encode),
    ("compile", .record [("validate_output", .bool settings.validateOutput)])]

def decodeCompile (rules : Rules) (value : Value) : Option Bool := do
  let given ← Decode.fields rules ["validate_output"] value
  Decode.withDefault given "validate_output" false Decode.bool

def decode (rules : Rules) : Decoder Settings
  | 0, _ => none
  | room + 1, value => do
    let given ← Decode.fields rules ["profile", "compile"] value
    let profile ← Decode.withDefault given "profile" {} (Profile.decode rules room)
    let validateOutput ← Decode.withDefault given "compile" false (decodeCompile rules)
    return { profile, validateOutput }

/-- Reads settings and checks their profile. -/
def ofToml (text : String) : Except SettingsError Settings :=
  match (Toml.read? text).bind (decode Toml.rules Toml.deepest) with
  | none => .error .malformed
  | some settings =>
    match settings.profile.validate with
    | .ok () => .ok settings
    | .error cause => .error (.invalid cause)

/-- Reads settings from what was found at a path. -/
def load (path : String) : SettingsFile → Except SettingsError Settings
  | .missing => .error (.notFound path)
  | .unreadable => .error .unreadable
  | .text content => ofToml content

def toOptions (settings : Settings) : CompileOptions :=
  { profile := settings.profile, validateOutput := settings.validateOutput }

end Settings

end MetricSql
