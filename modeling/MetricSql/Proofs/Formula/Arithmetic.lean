import MetricSql.Expr.Tokens
import MetricSql.Metric.Formula
import Mathlib

/-!
# Arithmetic on nullable numbers

A formula denotes a nullable number, and so does a sequence of SQL tokens once
it has been read with the usual precedences.  Both readings are defined here,
independently of how formulas are compiled.

Reading is by recursive descent.  Its lemmas say how readings of parts combine:
`IsPrimary`, `IsUnary`, `IsProduct` and `IsSum` hold of pieces that a level of
the grammar takes as a whole, whatever follows them.
-/

namespace MetricSql

/-! ## Exact values -/

def Decimal.Magnitude.value (m : Decimal.Magnitude) : ℚ :=
  m.mantissa * (2 : ℚ) ^ m.exponent

/-- The number that a double stands for without its sign, zero when it is none. -/
def Decimal.magnitude (x : Float) : ℚ :=
  match Decimal.read x with
  | .finite _ m => m.value
  | _ => 0

/-- The number that a double stands for. -/
def Decimal.value (x : Float) : ℚ :=
  if Decimal.isNegative x then -Decimal.magnitude x else Decimal.magnitude x

/-- Null if an operand is null or the denominator is zero. -/
def Operator.value : Operator → Option ℚ → Option ℚ → Option ℚ
  | .add, some x, some y => some (x + y)
  | .sub, some x, some y => some (x - y)
  | .mul, some x, some y => some (x * y)
  | .div, some x, some y => if y = 0 then none else some (x / y)
  | _, _, _ => none

/-- What a formula denotes over the values of its inputs. -/
def Formula.value (inputs : String → Option ℚ) : Formula → Option ℚ
  | .input name => inputs name
  | .literal x => some (Decimal.value x)
  | .neg operand => (operand.value inputs).map Neg.neg
  | .binary operator left right =>
      operator.value (left.value inputs) (right.value inputs)
  | .ratio numerator denominator =>
      Operator.div.value (numerator.value inputs) (denominator.value inputs)

/-! ## Reading tokens -/

/-- What remains of a token when blanks and comments are dropped and a negative
number is read as a minus sign and a number. -/
inductive Piece where
  | keyword (word : Keyword)
  | symbol (symbol : Symbol)
  | number (x : ℚ)
  | name (text : String)
  | function (text : String)
  | verbatim (text : String)
  /-- No part of arithmetic. -/
  | other

namespace Piece

def signed (negative : Bool) (x : ℚ) : List Piece :=
  if negative then [symbol .minus, number x] else [number x]

def ofToken : Token → List Piece
  | .keyword word => [keyword word]
  | .symbol s => [symbol s]
  | .space | .newline | .indent _ | .comment _ => []
  | .ident text => [name text]
  | .int n => signed (n.toInt < 0) n.toInt.natAbs
  | .float x => signed (Decimal.isNegative x) (Decimal.magnitude x)
  | .function text => [function text]
  | .verbatim text => [verbatim text]
  | .qualifiedIdent _ _ | .string _ | .raw _ => [other]

def ofTokens (tokens : List Token) : List Piece := tokens.flatMap ofToken

@[simp] theorem ofTokens_nil : ofTokens [] = [] := rfl

@[simp] theorem ofTokens_cons (token : Token) (rest : List Token) :
    ofTokens (token :: rest) = ofToken token ++ ofTokens rest := rfl

@[simp] theorem ofTokens_append (left right : List Token) :
    ofTokens (left ++ right) = ofTokens left ++ ofTokens right :=
  List.flatMap_append

end Piece

/-- Arithmetic as it is read. -/
inductive Arithmetic where
  | number (x : ℚ)
  | null
  | column (table name : String)
  | neg (operand : Arithmetic)
  | binary (operator : Operator) (left right : Arithmetic)
  /-- Null where both are equal, else the first. -/
  | nullIf (value other : Arithmetic)
  | safeDivide (numerator denominator : Arithmetic)
  /-- The first result where both are equal, else the second. -/
  | ifEqual (left right result otherwise : Arithmetic)

namespace Arithmetic

/-- The functions that divide and give null for a zero denominator. -/
def safeDivisions : List String := ["SAFE_DIVIDE", "TRY_DIVIDE"]

/-- The call of a function with two arguments. -/
def call? (function : String) (first second : Arithmetic) : Option Arithmetic :=
  if function = "NULLIF" then some (nullIf first second)
  else if function ∈ safeDivisions then some (safeDivide first second)
  else none

abbrev Read := Option (Arithmetic × List Piece)

/-- Passes over one piece. -/
def expect? (matched : Piece → Bool) : List Piece → Option (List Piece)
  | piece :: rest => if matched piece then some rest else none
  | [] => none

def isKeyword (word : Keyword) : Piece → Bool
  | .keyword given => given = word
  | _ => false

def isSymbol (symbol : Symbol) : Piece → Bool
  | .symbol given => given = symbol
  | _ => false

def isVerbatim : Piece → Bool
  | .verbatim _ => true
  | _ => false

mutual

def sum? : Nat → List Piece → Read
  | 0, _ => none
  | fuel + 1, input => do
    let (first, rest) ← product? fuel input
    moreSum? fuel first rest

/-- Sums and differences associate to the left. -/
def moreSum? : Nat → Arithmetic → List Piece → Read
  | 0, _, _ => none
  | fuel + 1, left, .symbol .plus :: rest => do
    let (right, rest) ← product? fuel rest
    moreSum? fuel (binary .add left right) rest
  | fuel + 1, left, .symbol .minus :: rest => do
    let (right, rest) ← product? fuel rest
    moreSum? fuel (binary .sub left right) rest
  | _ + 1, left, input => some (left, input)

def product? : Nat → List Piece → Read
  | 0, _ => none
  | fuel + 1, input => do
    let (first, rest) ← unary? fuel input
    moreProduct? fuel first rest

/-- Products and quotients associate to the left. -/
def moreProduct? : Nat → Arithmetic → List Piece → Read
  | 0, _, _ => none
  | fuel + 1, left, .symbol .star :: rest => do
    let (right, rest) ← unary? fuel rest
    moreProduct? fuel (binary .mul left right) rest
  | fuel + 1, left, .symbol .slash :: rest => do
    let (right, rest) ← unary? fuel rest
    moreProduct? fuel (binary .div left right) rest
  | _ + 1, left, input => some (left, input)

def unary? : Nat → List Piece → Read
  | 0, _ => none
  | fuel + 1, .symbol .minus :: rest =>
    (unary? fuel rest).map fun (operand, rest) => (neg operand, rest)
  | fuel + 1, input => primary? fuel input

def primary? : Nat → List Piece → Read
  | 0, _ => none
  | _ + 1, .number x :: rest => some (number x, rest)
  | _ + 1, .keyword .NULL :: rest => some (null, rest)
  | _ + 1, .name table :: .symbol .dot :: .name name :: rest => some (column table name, rest)
  | fuel + 1, .symbol .lparen :: rest => do
    let (inner, rest) ← sum? fuel rest
    let rest ← expect? (isSymbol .rparen) rest
    some (inner, rest)
  | fuel + 1, .keyword .CAST :: .symbol .lparen :: rest => do
    let (inner, rest) ← sum? fuel rest
    let rest ← expect? (isKeyword .AS) rest
    let rest ← expect? isVerbatim rest
    let rest ← expect? (isSymbol .rparen) rest
    some (inner, rest)
  | fuel + 1, .function text :: .symbol .lparen :: rest => do
    let (first, rest) ← sum? fuel rest
    let rest ← expect? (isSymbol .comma) rest
    let (second, rest) ← sum? fuel rest
    let rest ← expect? (isSymbol .rparen) rest
    let called ← call? text first second
    some (called, rest)
  | fuel + 1, .keyword .CASE :: .keyword .WHEN :: rest => do
    let (left, rest) ← sum? fuel rest
    let rest ← expect? (isSymbol .eq) rest
    let (right, rest) ← sum? fuel rest
    let rest ← expect? (isKeyword .THEN) rest
    let (result, rest) ← sum? fuel rest
    let rest ← expect? (isKeyword .ELSE) rest
    let (otherwise, rest) ← sum? fuel rest
    let rest ← expect? (isKeyword .END) rest
    some (ifEqual left right result otherwise, rest)
  | _ + 1, _ => none

end

/-- The arithmetic that a sequence of tokens is, none when it is not. -/
def read? (tokens : List Token) : Option Arithmetic :=
  match sum? (4 * (Piece.ofTokens tokens).length + 4) (Piece.ofTokens tokens) with
  | some (arithmetic, []) => some arithmetic
  | _ => none

/-! ## Evaluating -/

inductive DivisionByZero where
  | divisionByZero

/-- Plain division stops at a zero denominator; the other operators are null
where an operand is. -/
def apply (operator : Operator) (x y : Option ℚ) : Except DivisionByZero (Option ℚ) :=
  if operator = .div ∧ y = some 0 then .error .divisionByZero
  else .ok (operator.value x y)

/-- The value of arithmetic over a row.  Of a case distinction only the branch
that is taken is evaluated. -/
def eval (row : String → String → Option ℚ) : Arithmetic → Except DivisionByZero (Option ℚ)
  | number x => .ok (some x)
  | null => .ok none
  | column table name => .ok (row table name)
  | neg operand => do
    let x ← operand.eval row
    return x.map Neg.neg
  | binary operator left right => do
    let x ← left.eval row
    let y ← right.eval row
    apply operator x y
  | nullIf value other => do
    let x ← value.eval row
    let y ← other.eval row
    return if x = y then none else x
  | safeDivide numerator denominator => do
    let x ← numerator.eval row
    let y ← denominator.eval row
    return Operator.div.value x y
  | ifEqual left right result otherwise => do
    let x ← left.eval row
    let y ← right.eval row
    if x = y ∧ x ≠ none then result.eval row else otherwise.eval row

/-! ## The rules of the grammar -/

/-- The symbol of an operator. -/
def operatorSymbol : Operator → Symbol
  | .add => .plus
  | .sub => .minus
  | .mul => .star
  | .div => .slash

section Rules

-- One equation for each rule, true by computation.  No later proof unfolds the
-- readers, whose generated equations exclude every keyword and symbol one by one.

variable {fuel : Nat} {input rest : List Piece} {left : Arithmetic} {operator : Operator}

theorem expect?_symbol {s : Symbol} :
    expect? (isSymbol s) (.symbol s :: rest) = some rest := by
  simp [expect?, isSymbol]

theorem expect?_keyword {word : Keyword} :
    expect? (isKeyword word) (.keyword word :: rest) = some rest := by
  simp [expect?, isKeyword]

theorem sum?_succ : sum? (fuel + 1) input =
    (product? fuel input).bind fun first => moreSum? fuel first.1 first.2 := rfl

theorem moreSum?_operator (hop : operator = .add ∨ operator = .sub) :
    moreSum? (fuel + 1) left (.symbol (operatorSymbol operator) :: rest) =
      (product? fuel rest).bind fun right =>
        moreSum? fuel (binary operator left right.1) right.2 := by
  rcases hop with rfl | rfl <;> rfl

theorem product?_succ : product? (fuel + 1) input =
    (unary? fuel input).bind fun first => moreProduct? fuel first.1 first.2 := rfl

theorem moreProduct?_operator (hop : operator = .mul ∨ operator = .div) :
    moreProduct? (fuel + 1) left (.symbol (operatorSymbol operator) :: rest) =
      (unary? fuel rest).bind fun right =>
        moreProduct? fuel (binary operator left right.1) right.2 := by
  rcases hop with rfl | rfl <;> rfl

theorem unary?_minus : unary? (fuel + 1) (.symbol .minus :: rest) =
    (unary? fuel rest).map fun operand => (neg operand.1, operand.2) := rfl

theorem unary?_of_ne (h : ∀ more, input ≠ .symbol .minus :: more) :
    unary? (fuel + 1) input = primary? fuel input := by
  cases input with
  | nil => rfl
  | cons piece more =>
      cases piece with
      | symbol s =>
          cases s with
          | minus => exact absurd rfl (h more)
          | _ => rfl
      | _ => rfl

theorem primary?_minus : primary? fuel (.symbol .minus :: rest) = none := by
  cases fuel <;> rfl

theorem primary?_lparen : primary? (fuel + 1) (.symbol .lparen :: rest) =
    (sum? fuel rest).bind fun inner =>
      (expect? (isSymbol .rparen) inner.2).bind fun rest => some (inner.1, rest) := rfl

theorem primary?_cast : primary? (fuel + 1) (.keyword .CAST :: .symbol .lparen :: rest) =
    (sum? fuel rest).bind fun inner =>
      (expect? (isKeyword .AS) inner.2).bind fun rest =>
        (expect? isVerbatim rest).bind fun rest =>
          (expect? (isSymbol .rparen) rest).bind fun rest => some (inner.1, rest) := rfl

theorem primary?_call {text : String} :
    primary? (fuel + 1) (.function text :: .symbol .lparen :: rest) =
      (sum? fuel rest).bind fun first =>
        (expect? (isSymbol .comma) first.2).bind fun rest =>
          (sum? fuel rest).bind fun second =>
            (expect? (isSymbol .rparen) second.2).bind fun rest =>
              (call? text first.1 second.1).bind fun called => some (called, rest) := rfl

theorem primary?_case : primary? (fuel + 1) (.keyword .CASE :: .keyword .WHEN :: rest) =
    (sum? fuel rest).bind fun left =>
      (expect? (isSymbol .eq) left.2).bind fun rest =>
        (sum? fuel rest).bind fun right =>
          (expect? (isKeyword .THEN) right.2).bind fun rest =>
            (sum? fuel rest).bind fun result =>
              (expect? (isKeyword .ELSE) result.2).bind fun rest =>
                (sum? fuel rest).bind fun otherwise =>
                  (expect? (isKeyword .END) otherwise.2).bind fun rest =>
                    some (ifEqual left.1 right.1 result.1 otherwise.1, rest) := rfl

end Rules

/-! ## How readings combine -/

/-- The rest does not go on with one of the operators. -/
def Closes (operators : List Symbol) (rest : List Piece) : Prop :=
  ∀ s ∈ operators, ∀ more, rest ≠ .symbol s :: more

def IsPrimary (pieces : List Piece) (a : Arithmetic) : Prop :=
  ∀ fuel rest, 4 * pieces.length ≤ fuel →
    primary? fuel (pieces ++ rest) = some (a, rest)

def IsUnary (pieces : List Piece) (a : Arithmetic) : Prop :=
  ∀ fuel rest, 4 * pieces.length + 1 ≤ fuel →
    unary? fuel (pieces ++ rest) = some (a, rest)

def IsProduct (pieces : List Piece) (a : Arithmetic) : Prop :=
  ∀ fuel rest, 4 * pieces.length + 2 ≤ fuel → Closes [.star, .slash] rest →
    product? fuel (pieces ++ rest) = some (a, rest)

def IsSum (pieces : List Piece) (a : Arithmetic) : Prop :=
  ∀ fuel rest, 4 * pieces.length + 3 ≤ fuel →
    Closes [.plus, .minus, .star, .slash] rest →
    sum? fuel (pieces ++ rest) = some (a, rest)

theorem moreProduct?_of_closes {fuel : Nat} {left : Arithmetic} {rest : List Piece}
    (h : Closes [.star, .slash] rest) :
    moreProduct? (fuel + 1) left rest = some (left, rest) := by
  cases rest with
  | nil => rfl
  | cons piece more =>
      cases piece with
      | symbol s =>
          cases s with
          | star => exact absurd rfl (h .star (by simp) more)
          | slash => exact absurd rfl (h .slash (by simp) more)
          | _ => rfl
      | _ => rfl

theorem moreSum?_of_closes {fuel : Nat} {left : Arithmetic} {rest : List Piece}
    (h : Closes [.plus, .minus, .star, .slash] rest) :
    moreSum? (fuel + 1) left rest = some (left, rest) := by
  cases rest with
  | nil => rfl
  | cons piece more =>
      cases piece with
      | symbol s =>
          cases s with
          | plus => exact absurd rfl (h .plus (by simp) more)
          | minus => exact absurd rfl (h .minus (by simp) more)
          | _ => rfl
      | _ => rfl

theorem IsPrimary.isUnary {pieces : List Piece} {a : Arithmetic}
    (h : IsPrimary pieces a) : IsUnary pieces a := by
  intro fuel rest hfuel
  obtain ⟨fuel, rfl⟩ : ∃ n, fuel = n + 1 := ⟨fuel - 1, by omega⟩
  have hread := h fuel rest (by omega)
  rw [unary?_of_ne]
  · exact hread
  · intro more heq
    rw [heq, primary?_minus] at hread
    cases hread

theorem IsUnary.isProduct {pieces : List Piece} {a : Arithmetic}
    (h : IsUnary pieces a) : IsProduct pieces a := by
  intro fuel rest hfuel hcloses
  obtain ⟨fuel, rfl⟩ : ∃ n, fuel = n + 2 := ⟨fuel - 2, by omega⟩
  have hread := h (fuel + 1) rest (by omega)
  rw [product?_succ, hread]
  exact moreProduct?_of_closes hcloses

theorem IsProduct.isSum {pieces : List Piece} {a : Arithmetic}
    (h : IsProduct pieces a) : IsSum pieces a := by
  intro fuel rest hfuel hcloses
  obtain ⟨fuel, rfl⟩ : ∃ n, fuel = n + 2 := ⟨fuel - 2, by omega⟩
  have hread := h (fuel + 1) rest (by omega) fun s hs => hcloses s (by
    simp only [List.mem_cons, List.not_mem_nil, or_false] at hs ⊢
    exact .inr (.inr hs))
  rw [sum?_succ, hread]
  exact moreSum?_of_closes hcloses

theorem IsUnary.isSum {pieces : List Piece} {a : Arithmetic}
    (h : IsUnary pieces a) : IsSum pieces a :=
  h.isProduct.isSum

theorem IsPrimary.isSum {pieces : List Piece} {a : Arithmetic}
    (h : IsPrimary pieces a) : IsSum pieces a :=
  h.isUnary.isSum

theorem IsUnary.neg {pieces : List Piece} {a : Arithmetic}
    (h : IsUnary pieces a) : IsUnary (.symbol .minus :: pieces) (.neg a) := by
  intro fuel rest hfuel
  simp only [List.length_cons] at hfuel
  obtain ⟨fuel, rfl⟩ : ∃ n, fuel = n + 1 := ⟨fuel - 1, by omega⟩
  rw [List.cons_append, unary?_minus, h fuel rest (by omega)]
  rfl

/-- A product or quotient of two operands. -/
theorem IsUnary.isProduct_binary {operator : Operator} {left right : List Piece}
    {a b : Arithmetic} (hop : operator = .mul ∨ operator = .div)
    (hleft : IsUnary left a) (hright : IsUnary right b) :
    IsProduct (left ++ .symbol (operatorSymbol operator) :: right)
      (binary operator a b) := by
  intro fuel rest hfuel hcloses
  simp only [List.length_append, List.length_cons] at hfuel
  obtain ⟨fuel, rfl⟩ : ∃ n, fuel = n + 3 := ⟨fuel - 3, by omega⟩
  have hl := hleft (fuel + 2)
    (.symbol (operatorSymbol operator) :: (right ++ rest)) (by omega)
  have hr := hright (fuel + 1) rest (by omega)
  rw [List.append_assoc, List.cons_append, product?_succ, hl, Option.bind_some,
    moreProduct?_operator hop, hr]
  exact moreProduct?_of_closes hcloses

/-- A sum or difference of two operands. -/
theorem IsUnary.isSum_binary {operator : Operator} {left right : List Piece}
    {a b : Arithmetic} (hop : operator = .add ∨ operator = .sub)
    (hleft : IsUnary left a) (hright : IsUnary right b) :
    IsSum (left ++ .symbol (operatorSymbol operator) :: right)
      (binary operator a b) := by
  intro fuel rest hfuel hcloses
  simp only [List.length_append, List.length_cons] at hfuel
  obtain ⟨fuel, rfl⟩ : ∃ n, fuel = n + 3 := ⟨fuel - 3, by omega⟩
  have hmiddle : Closes [.star, .slash]
      (.symbol (operatorSymbol operator) :: (right ++ rest)) := by
    intro s hs more heq
    simp only [List.cons.injEq, Piece.symbol.injEq] at heq
    rw [← heq.1] at hs
    rcases hop with rfl | rfl <;> simp [operatorSymbol] at hs
  have hl := hleft.isProduct (fuel + 2)
    (.symbol (operatorSymbol operator) :: (right ++ rest)) (by omega) hmiddle
  have hr := hright.isProduct (fuel + 1) rest (by omega) fun s hs => hcloses s (by
    simp only [List.mem_cons, List.not_mem_nil, or_false] at hs ⊢
    exact .inr (.inr hs))
  rw [List.append_assoc, List.cons_append, sum?_succ, hl, Option.bind_some,
    moreSum?_operator hop, hr]
  exact moreSum?_of_closes hcloses

theorem IsUnary.isSum_apply (operator : Operator) {left right : List Piece}
    {a b : Arithmetic} (hleft : IsUnary left a) (hright : IsUnary right b) :
    IsSum (left ++ .symbol (operatorSymbol operator) :: right)
      (binary operator a b) := by
  cases operator with
  | add => exact hleft.isSum_binary (.inl rfl) hright
  | sub => exact hleft.isSum_binary (.inr rfl) hright
  | mul => exact (hleft.isProduct_binary (.inl rfl) hright).isSum
  | div => exact (hleft.isProduct_binary (.inr rfl) hright).isSum

/-! ### Primary readings -/

theorem closes_of_symbol {s : Symbol} {rest : List Piece}
    (h : s ∉ [Symbol.plus, .minus, .star, .slash]) :
    Closes [.plus, .minus, .star, .slash] (.symbol s :: rest) := by
  intro other hother more heq
  cases heq
  exact h hother

theorem closes_of_keyword {word : Keyword} {rest : List Piece} :
    Closes [.plus, .minus, .star, .slash] (.keyword word :: rest) := by
  intro other _ more heq
  cases heq

theorem isPrimary_number (x : ℚ) : IsPrimary [.number x] (.number x) := by
  intro fuel rest hfuel
  obtain ⟨fuel, rfl⟩ : ∃ n, fuel = n + 1 := ⟨fuel - 1, by simp at hfuel; omega⟩
  rfl

theorem isPrimary_null : IsPrimary [.keyword .NULL] .null := by
  intro fuel rest hfuel
  obtain ⟨fuel, rfl⟩ : ∃ n, fuel = n + 1 := ⟨fuel - 1, by simp at hfuel; omega⟩
  rfl

theorem isPrimary_column (table name : String) :
    IsPrimary [.name table, .symbol .dot, .name name] (.column table name) := by
  intro fuel rest hfuel
  obtain ⟨fuel, rfl⟩ : ∃ n, fuel = n + 1 := ⟨fuel - 1, by simp at hfuel; omega⟩
  rfl

theorem isUnary_signed (negative : Bool) (x : ℚ) :
    IsUnary (Piece.signed negative x)
      (if negative then .neg (.number x) else .number x) := by
  cases negative with
  | false => exact (isPrimary_number x).isUnary
  | true => exact (isPrimary_number x).isUnary.neg

theorem IsSum.paren {pieces : List Piece} {a : Arithmetic} (h : IsSum pieces a) :
    IsPrimary (.symbol .lparen :: (pieces ++ [.symbol .rparen])) a := by
  intro fuel rest hfuel
  simp only [List.length_cons, List.length_append, List.length_nil] at hfuel
  obtain ⟨fuel, rfl⟩ : ∃ n, fuel = n + 1 := ⟨fuel - 1, by omega⟩
  have hinner := h fuel (.symbol .rparen :: rest) (by omega)
    (closes_of_symbol (by simp))
  rw [List.cons_append, List.append_assoc, List.singleton_append, primary?_lparen, hinner]
  rfl

theorem IsSum.cast {pieces : List Piece} {a : Arithmetic} (h : IsSum pieces a)
    (type : String) :
    IsPrimary (.keyword .CAST :: .symbol .lparen ::
      (pieces ++ [.keyword .AS, .verbatim type, .symbol .rparen])) a := by
  intro fuel rest hfuel
  simp only [List.length_cons, List.length_append, List.length_nil] at hfuel
  obtain ⟨fuel, rfl⟩ : ∃ n, fuel = n + 1 := ⟨fuel - 1, by omega⟩
  have hinner := h fuel (.keyword .AS :: .verbatim type :: .symbol .rparen :: rest)
    (by omega) closes_of_keyword
  simp only [List.cons_append, List.append_assoc, List.nil_append]
  rw [primary?_cast, hinner]
  rfl

theorem IsSum.call (function : String) {first second : List Piece}
    {a b c : Arithmetic} (hfirst : IsSum first a) (hsecond : IsSum second b)
    (hcall : call? function a b = some c) :
    IsPrimary (.function function :: .symbol .lparen ::
      (first ++ .symbol .comma :: (second ++ [.symbol .rparen]))) c := by
  intro fuel rest hfuel
  simp only [List.length_cons, List.length_append, List.length_nil] at hfuel
  obtain ⟨fuel, rfl⟩ : ∃ n, fuel = n + 1 := ⟨fuel - 1, by omega⟩
  have hf := hfirst fuel (.symbol .comma :: (second ++ .symbol .rparen :: rest))
    (by omega) (closes_of_symbol (by simp))
  have hs := hsecond fuel (.symbol .rparen :: rest) (by omega)
    (closes_of_symbol (by simp))
  simp only [List.cons_append, List.append_assoc, List.nil_append]
  rw [primary?_call, hf]
  simp only [Option.bind_some, expect?_symbol, hs, hcall]

theorem IsSum.ifEqual {left right result otherwise : List Piece}
    {a b c d : Arithmetic} (hleft : IsSum left a) (hright : IsSum right b)
    (hresult : IsSum result c) (hotherwise : IsSum otherwise d) :
    IsPrimary (.keyword .CASE :: .keyword .WHEN ::
      (left ++ .symbol .eq :: (right ++ .keyword .THEN ::
        (result ++ .keyword .ELSE :: (otherwise ++ [.keyword .END])))))
      (.ifEqual a b c d) := by
  intro fuel rest hfuel
  simp only [List.length_cons, List.length_append, List.length_nil] at hfuel
  obtain ⟨fuel, rfl⟩ : ∃ n, fuel = n + 1 := ⟨fuel - 1, by omega⟩
  have hl := hleft fuel (.symbol .eq :: (right ++ .keyword .THEN ::
    (result ++ .keyword .ELSE :: (otherwise ++ .keyword .END :: rest))))
    (by omega) (closes_of_symbol (by simp))
  have hr := hright fuel (.keyword .THEN ::
    (result ++ .keyword .ELSE :: (otherwise ++ .keyword .END :: rest)))
    (by omega) closes_of_keyword
  have ht := hresult fuel (.keyword .ELSE :: (otherwise ++ .keyword .END :: rest))
    (by omega) closes_of_keyword
  have ho := hotherwise fuel (.keyword .END :: rest) (by omega) closes_of_keyword
  simp only [List.cons_append, List.append_assoc, List.nil_append]
  rw [primary?_case, hl]
  simp only [Option.bind_some, expect?_symbol, expect?_keyword, hr, ht, ho]

/-- What reads as a sum is read as a whole. -/
theorem IsSum.read? {tokens : List Token} {a : Arithmetic}
    (h : IsSum (Piece.ofTokens tokens) a) : read? tokens = some a := by
  have hread := h (4 * (Piece.ofTokens tokens).length + 4) [] (by omega)
    (fun s _ more heq => by cases heq)
  rw [List.append_nil] at hread
  simp [Arithmetic.read?, hread]

end Arithmetic

end MetricSql
