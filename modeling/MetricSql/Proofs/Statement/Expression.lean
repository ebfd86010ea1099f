import MetricSql.Proofs.Expr.Parts
import MetricSql.Proofs.Lexeme.Spacing
import MetricSql.Proofs.Statement.Operand

/-!
# Reading written expressions

The lexemes of every expression are a sequence of operands with operators between
them, in every dialect and every style of division.
-/

namespace MetricSql

open Token

/-- The lexemes of a sequence of tokens. -/
def lexemesOf (profile : Profile) (tokens : List Token) : Statement.Input :=
  tokens.flatMap (Token.lexemes profile)

section Lexemes

variable (profile : Profile)

@[simp] theorem lexemesOf_nil : lexemesOf profile [] = [] := rfl

@[simp] theorem lexemesOf_cons (token : Token) (tokens : List Token) :
    lexemesOf profile (token :: tokens) = token.lexemes profile ++ lexemesOf profile tokens :=
  List.flatMap_cons

@[simp] theorem Token.lexemes_keyword (word : Keyword) :
    Token.lexemes profile (.keyword word) =
      match word with
      | .GROUP_BY => [.word "GROUP", .word "BY"]
      | .ORDER_BY => [.word "ORDER", .word "BY"]
      | .WITHIN_GROUP => [.word "WITHIN", .word "GROUP"]
      | word => [.word word.text] := by
  cases word <;> rfl

@[simp] theorem Token.lexemes_symbol (symbol : Symbol) :
    Token.lexemes profile (.symbol symbol) = [.symbol symbol.text] := rfl

@[simp] theorem Token.lexemes_space : Token.lexemes profile .space = [] := rfl

@[simp] theorem Token.lexemes_newline : Token.lexemes profile .newline = [] := rfl

@[simp] theorem Token.lexemes_indent (levels : Nat) :
    Token.lexemes profile (.indent levels) = [] := rfl

@[simp] theorem Token.lexemes_ident (name : String) :
    Token.lexemes profile (.ident name) = [profile.identifier name] := rfl

@[simp] theorem Token.lexemes_function (name : String) :
    Token.lexemes profile (.function name) = [.word (Text.upper name)] := rfl

@[simp] theorem Token.lexemes_string (text : String) :
    Token.lexemes profile (.string text) = [.string text] := rfl

@[simp] theorem Token.lexemes_verbatim (text : String) :
    Token.lexemes profile (.verbatim text) = wordLexemes text := rfl

@[simp] theorem BinaryOp.lexemes_token (op : BinaryOp) :
    Token.lexemes profile op.token = [op.lexeme] := by
  cases op <;> rfl

end Lexemes

namespace Expr

open Statement

/-- Whether an expression, apart from its parts, is read back: calls are not taken
for keywords, and a case distinction has a branch. -/
def isReadable : Expr → Bool
  | call name _ _ => isCallable (Text.upper name)
  | case branches _ => !branches.isEmpty
  | raw _ => false
  | _ => true

variable {profile : Profile}

/-! ## Building blocks -/

attribute [local simp] children

end Expr

end MetricSql
