import MetricSql.Document.Value

/-!
# Reading data from documents

A decoder takes the number of containers that may still be entered and a value.  Records ignore fields they
do not know and refuse a field given twice; a list stands for a record by giving the fields in order.
-/

namespace MetricSql.Document

/-- Where the document formats differ. -/
structure Rules where
  /-- The content of a choice that carries nothing. -/
  isUnit : Value → Bool
  /-- Whether a list that stands for a record may have items after the last field. -/
  extraItems : Bool

abbrev Decoder (α : Type) := Nat → Value → Option α

namespace Decode

/-- The values given for the fields in `names`. -/
def fields (rules : Rules) (names : List String) : Value → Option (List (String × Value))
  | .record given =>
    let known := given.filter fun field => names.contains field.1
    if (known.map Prod.fst).Nodup then some known else none
  | .list items =>
    if rules.extraItems || items.length ≤ names.length then some (names.zip items) else none
  | _ => none

def required (given : List (String × Value)) (name : String) (decode : Value → Option α) : Option α :=
  (given.lookup name).bind decode

def withDefault (given : List (String × Value)) (name : String) (default : α) (decode : Value → Option α) :
    Option α :=
  match given.lookup name with
  | some value => decode value
  | none => some default

/-- A field that may be missing or null. -/
def optional (given : List (String × Value)) (name : String) (decode : Value → Option α) :
    Option (Option α) :=
  match given.lookup name with
  | none => some none
  | some .null => some none
  | some value => (decode value).map some

def string : Value → Option String
  | .string s => some s
  | _ => none

def bool : Value → Option Bool
  | .bool b => some b
  | _ => none

/-- A signed 64-bit integer. -/
def int64 : Value → Option Int64
  | .integer n =>
    if Int64.minValue.toInt ≤ n ∧ n ≤ Int64.maxValue.toInt then some (Int64.ofInt n) else none
  | _ => none

def float : Value → Option Float
  | .float x => some x
  | .integer n => some (Float.ofInt n)
  | _ => none

def list (item : Decoder α) : Decoder (List α)
  | room + 1, .list items => items.mapM (item room)
  | _, _ => none

/-- One of several names, alone or as the tag of empty content. -/
def choice (rules : Rules) (options : List (String × α)) : Decoder α
  | _, .string name => options.lookup name
  | _ + 1, .record [(name, content)] => if rules.isUnit content then options.lookup name else none
  | _, _ => none

/-- The tag and the content of a choice that carries data, and the room left inside it. -/
def tagged : Nat → Value → Option (String × Nat × Value)
  | room + 1, .record [(tag, content)] => some (tag, room, content)
  | _, _ => none

end Decode

end MetricSql.Document
