import MetricSql.Document.Decode
import MetricSql.Document.Toml.Scalar
import MetricSql.Document.Toml.Table
import MetricSql.Document.Toml.Text

/-!
# TOML

Reads a whole document as a record.
-/

namespace MetricSql.Document.Toml

/-- The content of an empty choice is an empty table or an empty list; items after the last field are passed
over. -/
def rules : Rules where
  isUnit
    | .record fields => fields.isEmpty
    | .list items => items.isEmpty
    | _ => false
  extraItems := true

/-- How many lists and inline tables may lie around a value. -/
def deepest : Nat := 80

mutual

def value? : Nat → Nat → List Char → Option (Value × List Char)
  | 0, _, _ => none
  | fuel + 1, room, text =>
    match text with
    | '"' :: _ | '\'' :: _ => (string? text).map fun (s, rest) => (.string (String.ofList s), rest)
    | '[' :: rest =>
      match room with
      | 0 => none
      | room + 1 => (items? fuel room (gap false rest)).map fun (items, rest) => (.list items, rest)
    | '{' :: rest =>
      match room with
      | 0 => none
      | room + 1 =>
        match skip rest with
        | '}' :: rest => some (.record [], rest)
        | rest => (pairs? fuel room [] rest).map fun (entries, rest) => (.record (entryValues entries), rest)
    | _ => scalar? text

/-- The items of a list up to its closing bracket; a comma may stand after the last one. -/
def items? : Nat → Nat → List Char → Option (List Value × List Char)
  | 0, _, _ => none
  | fuel + 1, room, text =>
    match text with
    | ']' :: rest => some ([], rest)
    | _ => do
      let (first, rest) ← value? fuel room text
      match gap false rest with
      | ',' :: rest =>
        let (others, rest) ← items? fuel room (gap false rest)
        some (first :: others, rest)
      | ']' :: rest => some ([first], rest)
      | _ => none

/-- The pairs of an inline table that is not empty, up to its closing brace. -/
def pairs? : Nat → Nat → Entries → List Char → Option (Entries × List Char)
  | 0, _, _, _ => none
  | fuel + 1, room, entries, text => do
    let (key, rest) ← key? text
    match rest with
    | '=' :: rest =>
      let (v, rest) ← value? fuel room (skip rest)
      let entries ← entries.assign key v
      match skip rest with
      | ',' :: rest => pairs? fuel room entries rest
      | '}' :: rest => some (entries, rest)
      | _ => none
    | _ => none

end

/-- What a line does. -/
inductive Line where
  | empty
  | table (path : List String)
  | item (path : List String)
  | pair (key : List String) (v : Value)

/-- The line at the front of the text, without its end. -/
def line? (text : List Char) : Option (Line × List Char) :=
  match skip text with
  | [] => some (.empty, [])
  | '#' :: rest => some (.empty, '#' :: rest)
  | '\n' :: rest => some (.empty, '\n' :: rest)
  | '\r' :: rest => some (.empty, '\r' :: rest)
  | '[' :: '[' :: rest => do
    let (path, rest) ← key? rest
    match rest with
    | ']' :: ']' :: rest => some (.item path, rest)
    | _ => none
  | '[' :: rest => do
    let (path, rest) ← key? rest
    match rest with
    | ']' :: rest => some (.table path, rest)
    | _ => none
  | text => do
    let (key, rest) ← key? text
    match rest with
    | '=' :: rest =>
      let (v, rest) ← value? (2 * rest.length + 2) deepest (skip rest)
      some (.pair key v, rest)
    | _ => none

/-- Carries out a line: gives the table that the next lines belong to, and the entries. -/
def Line.apply (here : List String) (entries : Entries) : Line → Option (List String × Entries)
  | .empty => some (here, entries)
  | .table path => (entries.openTable path).map fun entries => (path, entries)
  | .item path => (entries.openItem path).map fun entries => (path, entries)
  | .pair key v => (entries.assignIn here key v).map fun entries => (here, entries)

def lines? : Nat → List String → Entries → List Char → Option Entries
  | _, _, entries, [] => some entries
  | 0, _, _, _ => none
  | fuel + 1, here, entries, text => do
    let (line, rest) ← line? text
    let rest ← lineEnd? rest
    let (here, entries) ← line.apply here entries
    lines? fuel here entries rest

/-- The text without a byte order mark at its front. -/
def dropMark : List Char → List Char
  | '\ufeff' :: rest => rest
  | text => text

/-- The record that a whole text denotes. -/
def read? (text : String) : Option Value :=
  let text := dropMark text.toList
  (lines? text.length [] [] text).map fun entries => .record (entryValues entries)

end MetricSql.Document.Toml
