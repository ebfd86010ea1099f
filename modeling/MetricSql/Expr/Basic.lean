import MetricSql.Schema.Grain
import MetricSql.Text.Blank

/-!
# Expressions

The expressions of select items, join conditions and group keys.  They know no dialect: division, truncation,
percentiles and casts are spelt out when an expression is written.
-/

namespace MetricSql

inductive BinaryOp where
  | eq
  | gtEq
  | lt
  | and
  | or
  | add
  | sub
  | mul
  | div
deriving Repr, DecidableEq

inductive Expr where
  | column (table : Option String) (name : String)
  | int (value : Int64)
  | float (value : Float)
  | binary (op : BinaryOp) (left right : Expr)
  | neg (operand : Expr)
  | isNull (operand : Expr)
  | call (function : String) (args : List Expr) (distinct : Bool)
  | case (branches : List (Expr × Expr)) (otherwise : Option Expr)
  | paren (inner : Expr)
  | castFloat (inner : Expr)
  /-- Division that gives null for a zero denominator. -/
  | safeDivide (numerator denominator : Expr)
  | dateTrunc (grain : Grain) (inner : Expr)
  | percentile (inner : Expr) (fraction : Float) (discrete approximate : Bool)
  /-- An expression taken from a model as it stands. -/
  | raw (sql : String)
deriving Repr, BEq, Inhabited

namespace Expr

/-- A column of a relation. -/
def of (table name : String) : Expr := column (some table) name

def sum (e : Expr) : Expr := call "SUM" [e] false

def count (e : Expr) : Expr := call "COUNT" [e] false

def countDistinct (e : Expr) : Expr := call "COUNT" [e] true

def avg (e : Expr) : Expr := call "AVG" [e] false

def min (e : Expr) : Expr := call "MIN" [e] false

def max (e : Expr) : Expr := call "MAX" [e] false

/-- One where the condition holds, else zero. -/
def indicator (condition : Expr) : Expr := case [(condition, int 1)] (some (int 0))

/-- Whether the expression is put in parentheses as an operand. -/
def isCompound : Expr → Bool
  | binary .. | neg _ | isNull _ | safeDivide .. | raw _ => true
  | _ => false

/-- The expression in the place of an operand. -/
def asOperand (e : Expr) : Expr := if e.isCompound then paren e else e

mutual

/-- The expression and everything inside it, an expression before its parts. -/
def parts : Expr → List Expr
  | column table name => [column table name]
  | int value => [int value]
  | float value => [float value]
  | binary op left right => binary op left right :: (left.parts ++ right.parts)
  | neg operand => neg operand :: operand.parts
  | isNull operand => isNull operand :: operand.parts
  | call function args distinct => call function args distinct :: argParts args
  | case branches otherwise => case branches otherwise :: (branchParts branches ++ otherwiseParts otherwise)
  | paren inner => paren inner :: inner.parts
  | castFloat inner => castFloat inner :: inner.parts
  | safeDivide numerator denominator =>
    safeDivide numerator denominator :: (numerator.parts ++ denominator.parts)
  | dateTrunc grain inner => dateTrunc grain inner :: inner.parts
  | percentile inner fraction discrete approximate =>
    percentile inner fraction discrete approximate :: inner.parts
  | raw sql => [raw sql]

def argParts : List Expr → List Expr
  | [] => []
  | arg :: rest => arg.parts ++ argParts rest

def branchParts : List (Expr × Expr) → List Expr
  | [] => []
  | (condition, result) :: rest => condition.parts ++ result.parts ++ branchParts rest

def otherwiseParts : Option Expr → List Expr
  | none => []
  | some e => e.parts

end

end Expr

end MetricSql
