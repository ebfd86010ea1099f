/-!
# Documents

The tree that a JSON or TOML text denotes.  Fields keep their order, and a field may occur twice.
-/

namespace MetricSql.Document

inductive Value where
  | null
  | bool (b : Bool)
  | integer (n : Int)
  | float (x : Float)
  | string (s : String)
  | list (items : List Value)
  | record (fields : List (String × Value))
  /-- Well-formed text that denotes no value, such as a number beyond every double: it can be passed over,
  but nothing can be read from it. -/
  | unreadable
deriving Inhabited

/-- A record with the fields that are present. -/
def Value.present (fields : List (Option (String × Value))) : Value :=
  .record (fields.filterMap id)

/-- A field that is left out when there is nothing to say. -/
def Value.field? (name : String) (encode : α → Value) : Option α → Option (String × Value)
  | none => none
  | some a => some (name, encode a)

/-- A record with one field, the name of which tells what the content is. -/
def Value.tagged (tag : String) (content : Value) : Value := .record [(tag, content)]

end MetricSql.Document
