import MetricSql.Document.Decode
import MetricSql.Decimal.Binary
import MetricSql.Decimal.Literal

/-!
# JSON

Reads one JSON value.  Blanks may stand around it and nothing else.  A string with an unpaired surrogate and a
number beyond the doubles are well formed but unreadable; a record with such a string among its keys is
unreadable too.
-/

namespace MetricSql.Document.Json

/-- The choice content is null, a list has exactly as many items as the record can have fields. -/
def rules : Rules where
  isUnit
    | .null => true
    | _ => false
  extraItems := false

/-- How many containers may lie around a value that is read. -/
def deepest : Nat := 127

/-- A double as it is written: JSON has finite numbers only, and null stands for any other. -/
def encodeFloat (x : Float) : Value := if Decimal.isFinite x then .float x else .null

def isBlank (c : Char) : Bool := c == ' ' || c == '\n' || c == '\t' || c == '\r'

def skip (text : List Char) : List Char := text.dropWhile isBlank

def digitValue (c : Char) : Nat := c.toNat - '0'.toNat

/-- The digits at the front, and what follows them. -/
def digits (text : List Char) : List Char × List Char :=
  (text.takeWhile Char.isDigit, text.dropWhile Char.isDigit)

/-- The part of a number after its whole digits: the fraction digits, the exponent, and whether there was
either. -/
structure Tail where
  fraction : List Char := []
  exponent : Int := 0
  present : Bool := false

/-- An exponent after its `e`. -/
def exponent (text : List Char) : Option (Int × List Char) :=
  let (negative, text) :=
    match text with
    | '+' :: rest => (false, rest)
    | '-' :: rest => (true, rest)
    | _ => (false, text)
  match digits text with
  | ([], _) => none
  | (ds, rest) =>
    let size := ds.foldl (fun n c => n * 10 + digitValue c) 0
    some (if negative then -(size : Int) else size, rest)

def fraction : List Char → Option (List Char × List Char)
  | '.' :: text =>
    match digits text with
    | ([], _) => none
    | (ds, rest) => some (ds, rest)
  | text => some ([], text)

def tail (text : List Char) : Option (Tail × List Char) := do
  let (ds, text) ← fraction text
  match text with
  | 'e' :: rest | 'E' :: rest =>
    let (e, rest) ← exponent rest
    some (⟨ds, e, true⟩, rest)
  | _ => some (⟨ds, 0, !ds.isEmpty⟩, text)

def ofFloat? : Option Float → Value
  | some x => .float x
  | none => .unreadable

/-- The value of a number: an integer within 64 bits, else a double.  A negative zero is a double. -/
def numberValue (negative : Bool) (whole : List Char) (t : Tail) : Value :=
  let read := whole.foldl (fun d c => d.pushWhole (digitValue c)) ({} : Decimal.Digits)
  if t.present then
    let read := t.fraction.foldl (fun d c => d.pushFraction (digitValue c)) { read with full := false }
    ofFloat? (read.value? negative t.exponent)
  else if read.full then ofFloat? (read.value? negative 0)
  else if negative then
    if read.significand = 0 ∨ Nat.pow 2 63 < read.significand then ofFloat? (read.value? true 0)
    else .integer (-(read.significand : Int))
  else .integer read.significand

def number (text : List Char) : Option (Value × List Char) :=
  let (negative, text) :=
    match text with
    | '-' :: rest => (true, rest)
    | _ => (false, text)
  match digits text with
  | ([], _) => none
  | ('0' :: _ :: _, _) => none
  | (whole, rest) => (tail rest).map fun (t, rest) => (numberValue negative whole t, rest)

/-- A piece of a string: a character, or a 16-bit unit written as an escape. -/
inductive Piece where
  | char (c : Char)
  | unit (n : Nat)

def hexValue (c : Char) : Option Nat :=
  if c.isDigit then some (c.toNat - '0'.toNat)
  else if 'a' ≤ c && c ≤ 'f' then some (c.toNat - 'a'.toNat + 10)
  else if 'A' ≤ c && c ≤ 'F' then some (c.toNat - 'A'.toNat + 10)
  else none

def simpleEscape : Char → Option Char
  | '"' => some '"'
  | '\\' => some '\\'
  | '/' => some '/'
  | 'b' => some '\x08'
  | 'f' => some '\x0c'
  | 'n' => some '\n'
  | 'r' => some '\r'
  | 't' => some '\t'
  | _ => none

/-- The pieces of a string after its opening quote, and the text after its closing quote. -/
def pieces : List Char → Option (List Piece × List Char)
  | [] => none
  | '"' :: rest => some ([], rest)
  | '\\' :: 'u' :: a :: b :: c :: d :: rest => do
    let a ← hexValue a
    let b ← hexValue b
    let c ← hexValue c
    let d ← hexValue d
    let (ps, rest) ← pieces rest
    some (.unit (((a * 16 + b) * 16 + c) * 16 + d) :: ps, rest)
  | '\\' :: e :: rest => do
    let c ← simpleEscape e
    let (ps, rest) ← pieces rest
    some (.char c :: ps, rest)
  | c :: rest => do
    if c = '\\' ∨ c.toNat < 0x20 then none
    else
      let (ps, rest) ← pieces rest
      some (.char c :: ps, rest)

/-- The characters of the pieces; a surrogate counts only as half of a pair. -/
def joined : List Piece → Option (List Char)
  | [] => some []
  | .char c :: ps => (joined ps).map (c :: ·)
  | .unit n :: ps =>
    if 0xd800 ≤ n ∧ n ≤ 0xdfff then
      match ps with
      | .unit low :: ps =>
        if n ≤ 0xdbff ∧ 0xdc00 ≤ low ∧ low ≤ 0xdfff then
          (joined ps).map (Char.ofNat (0x10000 + (n - 0xd800) * 0x400 + (low - 0xdc00)) :: ·)
        else none
      | _ => none
    else (joined ps).map (Char.ofNat n :: ·)

/-- A string after its opening quote, none inside when it is unreadable. -/
def string (text : List Char) : Option (Option String × List Char) :=
  (pieces text).map fun (ps, rest) => ((joined ps).map String.ofList, rest)

/-- A record with readable keys. -/
def recordValue (members : List (Option String × Value)) : Value :=
  match members.mapM fun (key, value) => key.map fun key => (key, value) with
  | some fields => .record fields
  | none => .unreadable

mutual

def value : Nat → List Char → Option (Value × List Char)
  | 0, _ => none
  | fuel + 1, text =>
    match skip text with
    | 'n' :: 'u' :: 'l' :: 'l' :: rest => some (.null, rest)
    | 't' :: 'r' :: 'u' :: 'e' :: rest => some (.bool true, rest)
    | 'f' :: 'a' :: 'l' :: 's' :: 'e' :: rest => some (.bool false, rest)
    | '"' :: rest =>
      (string rest).map fun (s, rest) => (s.elim .unreadable .string, rest)
    | '[' :: rest =>
      match skip rest with
      | ']' :: rest => some (.list [], rest)
      | rest => (items fuel rest).map fun (vs, rest) => (.list vs, rest)
    | '{' :: rest =>
      match skip rest with
      | '}' :: rest => some (.record [], rest)
      | rest => (members fuel rest).map fun (ms, rest) => (recordValue ms, rest)
    | rest => number rest

/-- The items of a list that is not empty, up to its closing bracket. -/
def items : Nat → List Char → Option (List Value × List Char)
  | 0, _ => none
  | fuel + 1, text => do
    let (v, rest) ← value fuel text
    match skip rest with
    | ',' :: rest =>
      let (vs, rest) ← items fuel rest
      some (v :: vs, rest)
    | ']' :: rest => some ([v], rest)
    | _ => none

/-- The members of a record that is not empty, up to its closing brace. -/
def members : Nat → List Char → Option (List (Option String × Value) × List Char)
  | 0, _ => none
  | fuel + 1, text =>
    match skip text with
    | '"' :: rest => do
      let (key, rest) ← string rest
      match skip rest with
      | ':' :: rest =>
        let (v, rest) ← value fuel rest
        match skip rest with
        | ',' :: rest =>
          let (ms, rest) ← members fuel rest
          some ((key, v) :: ms, rest)
        | '}' :: rest => some ([(key, v)], rest)
        | _ => none
      | _ => none
    | _ => none

end

/-- The value of a whole text. -/
def read? (text : String) : Option Value :=
  let text := text.toList
  match value (2 * text.length + 2) text with
  | some (v, rest) => if (skip rest).isEmpty then some v else none
  | none => none

end MetricSql.Document.Json
