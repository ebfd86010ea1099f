import MetricSql.Expr.Basic
import MetricSql.Token

/-!
# Writing expressions
-/

namespace MetricSql

open Token

def BinaryOp.token : BinaryOp → Token
  | eq => symbol .eq
  | gtEq => symbol .gtEq
  | lt => symbol .lt
  | and => keyword .AND
  | or => keyword .OR
  | add => symbol .plus
  | sub => symbol .minus
  | mul => symbol .star
  | div => symbol .slash

namespace Expr

/-- Whether the text of the expression starts with a minus sign, so that another one before it would open a
comment. -/
def startsWithMinus : Expr → Bool
  | int value => value < 0
  | float value => Decimal.isNegative value
  | neg _ => true
  | binary _ left _ => left.startsWithMinus
  | isNull operand => operand.startsWithMinus
  | raw sql => (Text.trimStart sql.toList).head? == some '-'
  | _ => false

def parenthesized (tokens : List Token) : List Token :=
  symbol .lparen :: (tokens ++ [symbol .rparen])

/-- The tokens of an expression in the place of an operand. -/
def operandTokens (e : Expr) (tokens : List Token) : List Token :=
  if e.isCompound then parenthesized tokens else tokens

def separator : List Token := [symbol .comma, space]

/-- A call with its arguments already written. -/
def callTokens (name : String) (args : List Token) : List Token :=
  function name :: parenthesized args

/-- A division that gives null for a zero denominator, in the style of the profile. -/
def divisionTokens (profile : Profile) (numerator denominator guarded : List Token) : List Token :=
  match profile.divisionStyle, profile.dialect.safeDivision? with
  | .native, some name => callTokens name (numerator ++ separator ++ denominator)
  | .caseGuard, _ =>
    [keyword .CASE, space, keyword .WHEN, space] ++ guarded ++
      [space, symbol .eq, space, Token.int 0, space, keyword .THEN, space, keyword .NULL, space, keyword .ELSE,
        space] ++
      numerator ++ [space, symbol .slash, space] ++ guarded ++ [space, keyword .END]
  | _, _ =>
    numerator ++ [space, symbol .slash, space] ++
      callTokens "NULLIF" (denominator ++ separator ++ [Token.int 0])

/-- How a date is truncated where the dialect does not say. -/
def usualTruncation : TruncationCall := .quotedPartFirst "DATE_TRUNC"

def truncationTokens (profile : Profile) (grain : Grain) (inner : List Token) : List Token :=
  let part := profile.dialect.datePart grain
  match profile.dialect.truncation?.getD usualTruncation with
  | .quotedPartFirst name => callTokens name (string part :: (separator ++ inner))
  | .keywordPartFirst name => callTokens name (verbatim (Text.upper part) :: (separator ++ inner))
  | .keywordPartLast name => callTokens name (inner ++ separator ++ [verbatim (Text.upper part)])

/-- How a percentile is taken where the dialect does not say. -/
def usualPercentile (discrete : Bool) : PercentileCall :=
  .withinGroup (if discrete then "PERCENTILE_DISC" else "PERCENTILE_CONT")

def percentileTokens (profile : Profile) (fraction : Float) (discrete approximate : Bool)
    (inner : List Token) : List Token :=
  match (profile.dialect.percentile? discrete approximate).getD (usualPercentile discrete) with
  | .withinGroup name =>
    callTokens name [Token.float fraction] ++ [space, keyword .WITHIN_GROUP, space] ++
      parenthesized (keyword .ORDER_BY :: space :: inner)
  | .plain name => callTokens name (inner ++ separator ++ [Token.float fraction])

mutual

def tokens (profile : Profile) : Expr → List Token
  | column none name => [ident name]
  | column (some table) name => [ident table, symbol .dot, ident name]
  | int value => [Token.int value]
  | float value => [Token.float value]
  | binary op left right =>
    left.tokens profile ++ [space, op.token, space] ++ right.tokens profile
  | neg operand =>
    symbol .minus ::
      if operand.startsWithMinus then parenthesized (operand.tokens profile) else operand.tokens profile
  | isNull operand => operand.tokens profile ++ [space, keyword .IS, space, keyword .NULL]
  | call name args distinct =>
    callTokens name ((if distinct then [keyword .DISTINCT, space] else []) ++ argTokens profile args)
  | case branches otherwise =>
    keyword .CASE ::
      (branchTokens profile branches ++ otherwiseTokens profile otherwise ++ [space, keyword .END])
  | paren inner => parenthesized (inner.tokens profile)
  | castFloat inner =>
    keyword .CAST :: parenthesized
      (inner.tokens profile ++ [space, keyword .AS, space, verbatim profile.dialect.floatType])
  | safeDivide numerator denominator =>
    divisionTokens profile (operandTokens numerator (numerator.tokens profile)) (denominator.tokens profile)
      (operandTokens denominator (denominator.tokens profile))
  | dateTrunc grain inner => truncationTokens profile grain (inner.tokens profile)
  | percentile inner fraction discrete approximate =>
    percentileTokens profile fraction discrete approximate (inner.tokens profile)
  | raw sql => [Token.raw sql]

/-- The arguments of a call, separated by commas. -/
def argTokens (profile : Profile) : List Expr → List Token
  | [] => []
  | arg :: rest => arg.tokens profile ++ moreArgTokens profile rest

def moreArgTokens (profile : Profile) : List Expr → List Token
  | [] => []
  | arg :: rest => separator ++ arg.tokens profile ++ moreArgTokens profile rest

def branchTokens (profile : Profile) : List (Expr × Expr) → List Token
  | [] => []
  | (condition, result) :: rest =>
    [space, keyword .WHEN, space] ++ condition.tokens profile ++ [space, keyword .THEN, space] ++
      result.tokens profile ++ branchTokens profile rest

def otherwiseTokens (profile : Profile) : Option Expr → List Token
  | none => []
  | some e => [space, keyword .ELSE, space] ++ e.tokens profile

end

theorem operandTokens_eq {profile : Profile} (e : Expr) :
    operandTokens e (e.tokens profile) = e.asOperand.tokens profile := by
  unfold operandTokens asOperand
  split <;> simp [tokens]

end Expr

end MetricSql
