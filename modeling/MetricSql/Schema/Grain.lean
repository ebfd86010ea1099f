/-!
# Time grains

The periods a date can be truncated to, from the finest to the coarsest.
-/

namespace MetricSql

inductive Grain where
  | day
  | week
  | month
  | quarter
  | year
deriving Repr, DecidableEq

namespace Grain

def name : Grain → String
  | day => "day"
  | week => "week"
  | month => "month"
  | quarter => "quarter"
  | year => "year"

def all : List Grain := [day, week, month, quarter, year]

/-- The place of the grain from the finest on. -/
def rank : Grain → Nat
  | day => 0
  | week => 1
  | month => 2
  | quarter => 3
  | year => 4

/-- Whether `a` is finer than `b`. -/
def finer (a b : Grain) : Bool := a.rank < b.rank

/-- The grains in order, the finest first. -/
def sort (grains : List Grain) : List Grain :=
  grains.mergeSort fun a b => a.rank ≤ b.rank

end Grain

end MetricSql
