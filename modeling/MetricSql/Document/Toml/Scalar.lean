import MetricSql.Decimal.Literal
import MetricSql.Document.Value

/-!
# Scalars of TOML

Truth values, numbers and times.
-/

namespace MetricSql.Document.Toml

def digitValue (c : Char) : Nat := c.toNat - '0'.toNat

def isHexDigit (c : Char) : Bool := c.isDigit || ('a' ≤ c && c ≤ 'f') || ('A' ≤ c && c ≤ 'F')

def hexValue (c : Char) : Nat :=
  if c.isDigit then digitValue c
  else if 'a' ≤ c then c.toNat - 'a'.toNat + 10
  else c.toNat - 'A'.toNat + 10

/-- Digits without the underscores that may stand between two of them. -/
def ungrouped? (isDigit : Char → Bool) : List Char → Option (List Char)
  | [] => none
  | [c] => if isDigit c then some [c] else none
  | c :: '_' :: rest => if isDigit c then (ungrouped? isDigit rest).map (c :: ·) else none
  | c :: d :: rest => if isDigit c then (ungrouped? isDigit (d :: rest)).map (c :: ·) else none

/-- Decimal digits without a needless zero in front. -/
def decimal? (text : List Char) : Option (List Char) :=
  match ungrouped? Char.isDigit text with
  | some ('0' :: _ :: _) => none
  | digits => digits

def natural (base : Nat) (digits : List Char) : Nat := digits.foldl (fun n c => n * base + hexValue c) 0

/-- An integer of at most 128 bits. -/
def integer? (n : Int) : Option Value :=
  if -(Nat.pow 2 127 : Int) ≤ n ∧ n < (Nat.pow 2 128 : Int) then some (.integer n) else none

def signed (text : List Char) : Bool × List Char :=
  match text with
  | '-' :: rest => (true, rest)
  | '+' :: rest => (false, rest)
  | _ => (false, text)

/-- The digits after a point; none inside when there is no point. -/
def fraction? : List Char → Option (Option (List Char) × List Char)
  | '.' :: text =>
    let isPart := fun c : Char => c.isDigit || c == '_'
    (ungrouped? Char.isDigit (text.takeWhile isPart)).map fun digits => (some digits, text.dropWhile isPart)
  | text => some (none, text)

/-- The exponent that ends a number; none inside when there is no exponent. -/
def exponent? : List Char → Option (Option Int)
  | [] => some none
  | c :: text =>
    if c == 'e' || c == 'E' then
      let (negative, text) := signed text
      (ungrouped? Char.isDigit text).map fun digits =>
        let size : Int := natural 10 digits
        some (if negative then -size else size)
    else none

/-- A number with a fraction or an exponent. -/
def float? (negative : Bool) (text : List Char) : Option Value := do
  let isPart := fun c : Char => c.isDigit || c == '_'
  let whole ← decimal? (text.takeWhile isPart)
  let (fraction, rest) ← fraction? (text.dropWhile isPart)
  let exponent ← exponent? rest
  if fraction.isNone && exponent.isNone then none
  else
    let read := whole.foldl (fun d c => d.pushWhole (digitValue c)) ({} : Decimal.Digits)
    let read := (fraction.getD []).foldl (fun d c => d.pushFraction (digitValue c)) { read with full := false }
    (read.value? negative (exponent.getD 0)).map .float

def number? (text : List Char) : Option Value :=
  match text with
  | '0' :: 'x' :: digits => (ungrouped? isHexDigit digits).bind fun ds => integer? (natural 16 ds)
  | '0' :: 'o' :: digits =>
    (ungrouped? (fun c => '0' ≤ c && c ≤ '7') digits).bind fun ds => integer? (natural 8 ds)
  | '0' :: 'b' :: digits =>
    (ungrouped? (fun c => c == '0' || c == '1') digits).bind fun ds => integer? (natural 2 ds)
  | _ =>
    let (negative, size) := signed text
    if size = "inf".toList then some (.float (if negative then -(1 / 0) else 1 / 0))
    else if size = "nan".toList then some (.float (0 / 0))
    else
      match decimal? size with
      | some digits =>
        let n : Int := natural 10 digits
        integer? (if negative then -n else n)
      | none => float? negative size

/-- A number of two digits. -/
def two? : List Char → Option (Nat × List Char)
  | a :: b :: rest =>
    if a.isDigit && b.isDigit then some (digitValue a * 10 + digitValue b, rest) else none
  | _ => none

def isLeap (year : Nat) : Bool := (year % 4 == 0 && year % 100 != 0) || year % 400 == 0

def daysIn (year month : Nat) : Nat :=
  if month = 2 then if isLeap year then 29 else 28
  else if month = 4 || month = 6 || month = 9 || month = 11 then 30
  else 31

/-- The text after a date. -/
def date? (text : List Char) : Option (List Char) := do
  let (century, text) ← two? text
  let (year, text) ← two? text
  match text with
  | '-' :: text =>
    let (month, text) ← two? text
    match text with
    | '-' :: text =>
      let (day, text) ← two? text
      let days := daysIn (century * 100 + year) month
      if 1 ≤ month ∧ month ≤ 12 ∧ 1 ≤ day ∧ day ≤ days then some text else none
    | _ => none
  | _ => none

/-- The text after a time of day. -/
def time? (text : List Char) : Option (List Char) := do
  let (hour, text) ← two? text
  match text with
  | ':' :: text =>
    let (minute, text) ← two? text
    match text with
    | ':' :: text =>
      let (second, text) ← two? text
      if hour ≤ 23 ∧ minute ≤ 59 ∧ second ≤ 60 then
        match text with
        | '.' :: text => if text.head?.any Char.isDigit then some (text.dropWhile Char.isDigit) else none
        | _ => some text
      else none
    | _ => none
  | _ => none

/-- Whether the text is empty or the distance from universal time. -/
def isOffset : List Char → Bool
  | [] => true
  | ['Z'] | ['z'] => true
  | c :: text =>
    (c == '+' || c == '-') &&
      match two? text with
      | some (hour, ':' :: text) =>
        match two? text with
        | some (minute, []) => hour ≤ 23 && minute ≤ 59
        | _ => false
      | _ => false

/-- Whether the text is a date, a time of day or both. -/
def isTime (text : List Char) : Bool :=
  match date? text with
  | some [] => true
  | some (c :: rest) => (c == 'T' || c == 't' || c == ' ') && (time? rest).any isOffset
  | none => time? text == some []

def isScalarChar (c : Char) : Bool := c.isAlphanum || c == '+' || c == '-' || c == '.' || c == ':' || c == '_'

/-- A scalar and the text after it.  A single space may stand between a date and a time.  A time is a record
that has its text under a name no record of this library has. -/
def scalar? (text : List Char) : Option (Value × List Char) :=
  let token := text.takeWhile isScalarChar
  let rest := text.dropWhile isScalarChar
  let (token, rest) :=
    match date? token, rest with
    | some [], ' ' :: a :: more =>
      let time := (a :: more).takeWhile isScalarChar
      if a.isDigit then (token ++ ' ' :: time, (a :: more).dropWhile isScalarChar) else (token, rest)
    | _, _ => (token, rest)
  if token = "true".toList then some (.bool true, rest)
  else if token = "false".toList then some (.bool false, rest)
  else if isTime token then some (.record [("$datetime", .string (String.ofList token))], rest)
  else (number? token).map fun value => (value, rest)

end MetricSql.Document.Toml
