import MetricSql.Expr.Tokens
import MetricSql.Query.Basic

/-!
# Writing queries

The layout is fixed: two spaces for each level of nesting, one select item, condition or group key on each
line, and separators at the start of the line.
-/

namespace MetricSql

open Token

def SelectItem.tokens (profile : Profile) (item : SelectItem) : List Token :=
  item.expr.tokens profile ++
    match item.aliasName with
    | some aliasName => [space, keyword .AS, space, ident aliasName]
    | none => []

/-- A new line, `depth` levels in. -/
def lineAt (depth : Nat) : List Token := [newline, indent depth]

/-- Every entry on a line of its own, all but the first after the separator. -/
def linesOf (depth : Nat) (separator : List Token) : List (List Token) → List Token
  | [] => []
  | first :: rest => lineAt depth ++ first ++ rest.flatMap fun entry => lineAt depth ++ separator ++ entry

def commentLines (profile : Profile) (depth : Nat) (comments : List String) : List Token :=
  if profile.stageComments then comments.flatMap fun text => [indent depth, comment text, newline] else []

def selectLines (profile : Profile) (depth : Nat) (items : List SelectItem) : List Token :=
  [indent depth, keyword .SELECT] ++ linesOf (depth + 1) Expr.separator (items.map (·.tokens profile))

def groupLines (profile : Profile) (depth : Nat) (keys : List Expr) : List Token :=
  if keys.isEmpty then []
  else
    lineAt depth ++ [keyword .GROUP_BY] ++
      linesOf (depth + 1) Expr.separator (keys.map (·.tokens profile))

def onLines (profile : Profile) (depth : Nat) (conditions : List Expr) : List Token :=
  if conditions.isEmpty then []
  else
    lineAt depth ++ [keyword .ON] ++
      linesOf (depth + 1) [keyword .AND, space] (conditions.map (·.tokens profile))

def TableRef.tokens (ref : TableRef) : List Token :=
  [qualifiedIdent ref.schema ref.table, space, ident ref.aliasName]

def JoinKind.tokens : JoinKind → List Token
  | inner => [keyword .INNER, space, keyword .JOIN, space]
  | leftOuter => [keyword .LEFT, space, keyword .OUTER, space, keyword .JOIN, space]

mutual

/-- The tokens of a query that is nested `depth` levels deep. -/
def Query.tokensAt (profile : Profile) (depth : Nat) : Query → List Token
  | ⟨comments, select, source, joins, groupBy⟩ =>
    commentLines profile depth comments ++ selectLines profile depth select ++
      sourceLines profile depth source ++ joinLines profile depth joins ++ groupLines profile depth groupBy

def sourceLines (profile : Profile) (depth : Nat) : Option Relation → List Token
  | none => []
  | some relation => lineAt depth ++ [keyword .FROM, space] ++ relation.tokensAt profile depth

def Relation.tokensAt (profile : Profile) (depth : Nat) : Relation → List Token
  | .table ref => ref.tokens
  | .subquery query aliasName =>
    [symbol .lparen, newline] ++ query.tokensAt profile (depth + 1) ++ lineAt depth ++
      [symbol .rparen, space, ident aliasName]

def joinLines (profile : Profile) (depth : Nat) : List Join → List Token
  | [] => []
  | join :: rest => lineAt depth ++ join.tokensAt profile depth ++ joinLines profile depth rest

def Join.tokensAt (profile : Profile) (depth : Nat) : Join → List Token
  | ⟨kind, relation, on⟩ => kind.tokens ++ relation.tokensAt profile depth ++ onLines profile depth on

end

namespace Query

def tokens (profile : Profile) (query : Query) : List Token := query.tokensAt profile 0

/-- The text of a query that is nested `depth` levels deep. -/
def textAt (profile : Profile) (depth : Nat) (query : Query) : Except Unprintable String :=
  Token.textAll profile (query.tokensAt profile depth)

def text (profile : Profile) (query : Query) : Except Unprintable String := query.textAt profile 0

end Query

end MetricSql
