import MetricSql.Profile
import MetricSql.Text.Uppercase

/-!
# Tokens

The pieces SQL is written with.  Tokens know no dialect; the profile decides on quotes and spelling when they
become text.
-/

namespace MetricSql

inductive Keyword where
  | SELECT
  | FROM
  | AND
  | OR
  | IS
  | AS
  | ON
  | JOIN
  | INNER
  | LEFT
  | OUTER
  | GROUP_BY
  | ORDER_BY
  | CASE
  | WHEN
  | THEN
  | ELSE
  | END
  | DISTINCT
  | CAST
  | WITHIN_GROUP
  | NULL
deriving Repr, DecidableEq

namespace Keyword

def text : Keyword → String
  | SELECT => "SELECT"
  | FROM => "FROM"
  | AND => "AND"
  | OR => "OR"
  | IS => "IS"
  | AS => "AS"
  | ON => "ON"
  | JOIN => "JOIN"
  | INNER => "INNER"
  | LEFT => "LEFT"
  | OUTER => "OUTER"
  | GROUP_BY => "GROUP BY"
  | ORDER_BY => "ORDER BY"
  | CASE => "CASE"
  | WHEN => "WHEN"
  | THEN => "THEN"
  | ELSE => "ELSE"
  | END => "END"
  | DISTINCT => "DISTINCT"
  | CAST => "CAST"
  | WITHIN_GROUP => "WITHIN GROUP"
  | NULL => "NULL"

def all : List Keyword := [SELECT, FROM, AND, OR, IS, AS, ON, JOIN, INNER, LEFT, OUTER, GROUP_BY, ORDER_BY,
  CASE, WHEN, THEN, ELSE, END, DISTINCT, CAST, WITHIN_GROUP, NULL]

end Keyword

inductive Symbol where
  | comma
  | dot
  | lparen
  | rparen
  | eq
  | gtEq
  | lt
  | plus
  | minus
  | star
  | slash
deriving Repr, DecidableEq

namespace Symbol

def text : Symbol → String
  | comma => ","
  | dot => "."
  | lparen => "("
  | rparen => ")"
  | eq => "="
  | gtEq => ">="
  | lt => "<"
  | plus => "+"
  | minus => "-"
  | star => "*"
  | slash => "/"

def all : List Symbol := [comma, dot, lparen, rparen, eq, gtEq, lt, plus, minus, star, slash]

end Symbol

inductive Token where
  | keyword (word : Keyword)
  | symbol (symbol : Symbol)
  | space
  | newline
  /-- Two spaces for each level. -/
  | indent (levels : Nat)
  /-- A comment up to the end of the line. -/
  | comment (text : String)
  | ident (name : String)
  | qualifiedIdent (schema : Option String) (name : String)
  | int (value : Int64)
  | float (value : Float)
  | string (text : String)
  /-- The name of a function, written in upper case. -/
  | function (name : String)
  /-- A word of the dialect, such as a type or a date part. -/
  | verbatim (text : String)
  /-- An expression taken from a model as it stands. -/
  | raw (sql : String)
deriving Repr, BEq

namespace Token

/-- The text of a number literal. -/
def floatText (x : Float) : Except Unprintable String :=
  match Decimal.read x with
  | .notANumber => .error .notANumber
  | .infinite _ => .error .infinite
  | .finite negative m => .ok (String.ofList (Decimal.literalLayout.signed negative m))

def indentText (levels : Nat) : String := String.ofList (List.replicate (2 * levels) ' ')

/-- The text of a comment on one line. -/
def commentText (text : String) : String :=
  "-- " ++ String.ofList (text.toList.map fun c => if c = '\r' ∨ c = '\n' then ' ' else c)

def intText (value : Int64) : String := String.ofList (Decimal.intText value.toInt)

def qualifiedText (profile : Profile) (schema : Option String) (name : String) : String :=
  match schema with
  | some schema => profile.quoteIdentifier schema ++ "." ++ profile.quoteIdentifier name
  | none => profile.quoteIdentifier name

def text (profile : Profile) : Token → Except Unprintable String
  | keyword word => .ok word.text
  | symbol s => .ok s.text
  | space => .ok " "
  | newline => .ok "\n"
  | indent levels => .ok (indentText levels)
  | comment text => .ok (commentText text)
  | ident name => .ok (profile.quoteIdentifier name)
  | qualifiedIdent schema name => .ok (qualifiedText profile schema name)
  | int value => .ok (intText value)
  | float value => floatText value
  | string text => .ok (profile.dialect.quoteString text)
  | function name => .ok (Text.upper name)
  | verbatim text => .ok text
  | raw sql => .ok sql

/-- The text of a sequence of tokens, which is that of each in turn. -/
def textAll (profile : Profile) : List Token → Except Unprintable String
  | [] => .ok ""
  | token :: rest => do
    let first ← token.text profile
    let others ← textAll profile rest
    return first ++ others

end Token

end MetricSql
