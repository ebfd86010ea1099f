import MetricSql.Document.Value

/-!
# Tables of TOML

A document defines tables by headers and by keys with dots.  Each table is defined once: a header may complete
a table that was so far only passed through by other headers, and keys with dots extend only tables that keys
with dots made.
-/

namespace MetricSql.Document.Toml

/-- How a table came to be. -/
inductive Origin where
  /-- By a header of its own. -/
  | header
  /-- By a longer header. -/
  | passed
  /-- By a key with dots. -/
  | dotted
deriving DecidableEq

inductive Node where
  /-- A value that nothing can be added to. -/
  | value (v : Value)
  | table (origin : Origin) (entries : List (String × Node))
  /-- Tables under a repeated header. -/
  | tables (items : List (List (String × Node)))

abbrev Entries := List (String × Node)

namespace Entries

/-- Gives a key that is present another node. -/
def set (key : String) (node : Node) (entries : Entries) : Entries :=
  entries.map fun entry => if entry.1 = key then (key, node) else entry

/-- Changes the entries that a path leads to.  Missing tables are made and `origin` recorded for them; of
repeated tables the last one is entered. -/
def update (origin : Origin) (change : Origin → Entries → Option Entries) :
    List String → Origin → Entries → Option Entries
  | [], here, entries => change here entries
  | key :: path, _, entries =>
    match entries.lookup key with
    | none => (update origin change path origin []).map fun inner => entries ++ [(key, .table origin inner)]
    | some (.value _) => none
    | some (.table made inner) =>
      if origin = .dotted ∧ made = .header then none
      else (update origin change path made inner).map fun inner => set key (.table made inner) entries
    | some (.tables items) =>
      match items.getLast? with
      | none => none
      | some last =>
        (update origin change path .header last).map fun last =>
          set key (.tables (items.dropLast ++ [last])) entries

/-- Adds a value under a key that is not present. -/
def add (key : String) (v : Value) (entries : Entries) : Option Entries :=
  if (entries.lookup key).isNone then some (entries ++ [(key, .value v)]) else none

/-- Adds a value under a key whose path starts at these entries. -/
def assign (key : List String) (v : Value) (entries : Entries) : Option Entries :=
  match key.getLast? with
  | none => none
  | some last =>
    update .dotted
      (fun here entries => if key.length = 1 ∨ here = .dotted then add last v entries else none)
      key.dropLast .header entries

/-- Defines the table of a header. -/
def openTable (path : List String) (entries : Entries) : Option Entries :=
  match path.getLast? with
  | none => none
  | some last =>
    update .passed
      (fun _ entries =>
        match entries.lookup last with
        | none => some (entries ++ [(last, .table .header [])])
        | some (.table .passed inner) => some (set last (.table .header inner) entries)
        | some _ => none)
      path.dropLast .header entries

/-- Defines one more table of a repeated header. -/
def openItem (path : List String) (entries : Entries) : Option Entries :=
  match path.getLast? with
  | none => none
  | some last =>
    update .passed
      (fun _ entries =>
        match entries.lookup last with
        | none => some (entries ++ [(last, .tables [[]])])
        | some (.tables items) => some (set last (.tables (items ++ [[]])) entries)
        | some _ => none)
      path.dropLast .header entries

/-- Adds a value to the table of a header. -/
def assignIn (path key : List String) (v : Value) (entries : Entries) : Option Entries :=
  update .passed (fun _ entries => assign key v entries) path .header entries

end Entries

mutual

def Node.toValue : Node → Value
  | .value v => v
  | .table _ entries => .record (entryValues entries)
  | .tables items => .list (itemValues items)

def entryValues : List (String × Node) → List (String × Value)
  | [] => []
  | (key, node) :: rest => (key, node.toValue) :: entryValues rest

def itemValues : List (List (String × Node)) → List Value
  | [] => []
  | entries :: rest => .record (entryValues entries) :: itemValues rest

end

end MetricSql.Document.Toml
