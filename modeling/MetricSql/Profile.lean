import MetricSql.Dialect.Spelling
import MetricSql.Failure
import MetricSql.Text.Identifier

/-!
# Profiles

A profile says how SQL is written for one warehouse.
-/

namespace MetricSql

/-- When identifiers are quoted. -/
inductive QuotePolicy where
  | always
  /-- Only names that are not bare or are reserved. -/
  | whenRequired
deriving Repr, DecidableEq

namespace QuotePolicy

def name : QuotePolicy → String
  | always => "always"
  | whenRequired => "when_required"

def all : List QuotePolicy := [always, whenRequired]

end QuotePolicy

/-- How a division is written that gives null for a zero denominator. -/
inductive DivisionStyle where
  /-- Written `a / NULLIF(b, 0)`. -/
  | nullIf
  /-- Written `CASE WHEN b = 0 THEN NULL ELSE a / b END`. -/
  | caseGuard
  /-- The function the dialect has for it. -/
  | native
deriving Repr, DecidableEq

namespace DivisionStyle

def name : DivisionStyle → String
  | nullIf => "null_if"
  | caseGuard => "case_guard"
  | native => "native"

def all : List DivisionStyle := [nullIf, caseGuard, native]

end DivisionStyle

structure Profile where
  dialect : Dialect := .duckdb
  quoting : QuotePolicy := .whenRequired
  /-- Takes the place of the style the dialect prefers. -/
  division : Option DivisionStyle := none
  /-- Whether every query starts with a comment that names its stage. -/
  stageComments : Bool := true
deriving Repr, DecidableEq

namespace Profile

/-- The style that was asked for, else the function of the dialect, else `NULLIF`. -/
def divisionStyle (profile : Profile) : DivisionStyle :=
  match profile.division with
  | some style => style
  | none => if profile.dialect.safeDivision?.isSome then .native else .nullIf

def quoteIdentifier (profile : Profile) (name : String) : String :=
  match profile.quoting with
  | .always => profile.dialect.quoteIdentifier name
  | .whenRequired =>
    if Text.isBare name && !isReserved name then name else profile.dialect.quoteIdentifier name

/-- A profile must not ask for a native division that the dialect lacks. -/
def validate (profile : Profile) : Except Failure Unit :=
  if profile.division = some .native ∧ profile.dialect.safeDivision? = none then
    .error (.unsupportedFeature profile.dialect "native safe division")
  else .ok ()

end Profile

end MetricSql
