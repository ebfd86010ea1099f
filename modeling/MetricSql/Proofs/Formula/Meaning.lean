import MetricSql.Proofs.Formula.Arithmetic
import MetricSql.Proofs.Plan.Steps

/-!
# Formulas keep their meaning

A compiled formula is written with parentheses around compound operands, with a
division in one of three styles.  The tokens, read back with the usual
precedences, have the value that the formula denotes, and no denominator is zero
where plain division is evaluated.
-/

namespace MetricSql

open Arithmetic

/-- A row of the input as the tokens see it: its columns stand under its alias. -/
def Plan.inputRow (input : Plan) (inputs : String → Option ℚ) :
    String → String → Option ℚ :=
  fun table name => if table = input.aliasName then inputs name else none

/-- The tokens of an expression have a value, both as a whole expression and in
the place of an operand. -/
structure Expr.Denotes (profile : Profile) (row : String → String → Option ℚ)
    (e : Expr) (x : Option ℚ) : Prop where
  whole : ∃ a, IsSum (Piece.ofTokens (e.tokens profile)) a ∧ a.eval row = .ok x
  operand : ∃ a, IsUnary (Piece.ofTokens (e.asOperand.tokens profile)) a ∧
    a.eval row = .ok x

namespace Expr

variable {profile : Profile} {row : String → String → Option ℚ}

attribute [local simp] tokens asOperand eval

@[simp] theorem ofTokens_parenthesized (tokens : List Token) :
    Piece.ofTokens (parenthesized tokens) =
      .symbol .lparen :: (Piece.ofTokens tokens ++ [.symbol .rparen]) := by
  simp [parenthesized, Piece.ofToken]

@[simp] theorem ofTokens_separator :
    Piece.ofTokens separator = [.symbol .comma] := rfl

@[simp] theorem ofTokens_callTokens (name : String) (args : List Token) :
    Piece.ofTokens (callTokens name args) =
      .function name :: .symbol .lparen :: (Piece.ofTokens args ++ [.symbol .rparen]) := by
  simp [callTokens, Piece.ofToken]

/-- A compound expression is put in parentheses as an operand. -/
theorem denotes_of_isSum {e : Expr} (hcompound : e.isCompound) {a : Arithmetic}
    {x : Option ℚ} (hsum : IsSum (Piece.ofTokens (e.tokens profile)) a)
    (heval : a.eval row = .ok x) : e.Denotes profile row x := by
  refine ⟨⟨a, hsum, heval⟩, a, ?_, heval⟩
  have htokens : e.asOperand.tokens profile = parenthesized (e.tokens profile) := by
    simp [hcompound]
  rw [htokens, ofTokens_parenthesized]
  exact hsum.paren.isUnary

/-- Any other expression stands as it is. -/
theorem denotes_of_isUnary {e : Expr} (hsimple : e.isCompound = false)
    {a : Arithmetic} {x : Option ℚ}
    (hunary : IsUnary (Piece.ofTokens (e.tokens profile)) a)
    (heval : a.eval row = .ok x) : e.Denotes profile row x := by
  refine ⟨⟨a, hunary.isSum, heval⟩, a, ?_, heval⟩
  simpa [hsimple] using hunary

theorem denotes_column (table name : String) :
    (Expr.of table name).Denotes profile row (row table name) :=
  denotes_of_isUnary rfl (isPrimary_column table name).isUnary rfl

theorem denotes_float (x : Float) :
    (Expr.float x).Denotes profile row (some (Decimal.value x)) := by
  have hpieces : Piece.ofTokens ((Expr.float x).tokens profile) =
      Piece.signed (Decimal.isNegative x) (Decimal.magnitude x) := by
    simp [Piece.ofToken]
  refine denotes_of_isUnary rfl (hpieces ▸ isUnary_signed _ _) ?_
  cases hsign : Decimal.isNegative x with
  | false => simp [Decimal.value, hsign]
  | true =>
      simp [Decimal.value, hsign, bind, Except.bind, pure, Except.pure]

variable {e left right : Expr} {x y : Option ℚ}

theorem Denotes.neg (h : e.Denotes profile row x) :
    (Expr.neg e.asOperand).Denotes profile row (x.map Neg.neg) := by
  obtain ⟨a, hunary, heval⟩ := h.operand
  refine denotes_of_isSum (a := .neg a) rfl ?_ (by simp [heval, bind, Except.bind]; rfl)
  simp only [tokens]
  split
  next =>
    rw [Piece.ofTokens_cons, ofTokens_parenthesized]
    exact hunary.isSum.paren.isUnary.neg.isSum
  next =>
    rw [Piece.ofTokens_cons]
    exact hunary.neg.isSum

/-- The operands of a sum, difference or product are read as they were meant. -/
theorem Denotes.binary {operator : Operator} (hop : operator ≠ .div)
    (hleft : left.Denotes profile row x) (hright : right.Denotes profile row y) :
    (operator.apply left right).Denotes profile row (operator.value x y) := by
  obtain ⟨a, ha, hevalLeft⟩ := hleft.operand
  obtain ⟨b, hb, hevalRight⟩ := hright.operand
  have heval : (Arithmetic.binary operator a b).eval row =
      .ok (operator.value x y) := by
    simp [hevalLeft, hevalRight, Arithmetic.apply, hop, bind, Except.bind]
  have hsum := IsUnary.isSum_apply operator ha hb
  cases operator with
  | add => exact denotes_of_isSum rfl (by simpa [Operator.apply,
      Piece.ofToken, BinaryOp.token, operatorSymbol] using hsum) heval
  | sub => exact denotes_of_isSum rfl (by simpa [Operator.apply,
      Piece.ofToken, BinaryOp.token, operatorSymbol] using hsum) heval
  | mul => exact denotes_of_isSum rfl (by simpa [Operator.apply,
      Piece.ofToken, BinaryOp.token, operatorSymbol] using hsum) heval
  | div => exact absurd rfl hop

theorem Denotes.castFloat (h : e.Denotes profile row x) :
    (Expr.castFloat e).Denotes profile row x := by
  obtain ⟨a, hsum, heval⟩ := h.whole
  refine denotes_of_isUnary (a := a) rfl ?_ heval
  have hcast := hsum.cast profile.dialect.floatType
  simpa [Piece.ofToken] using hcast.isUnary

/-! ## Division -/

/-- Division by `NULLIF(y, 0)` never meets a zero. -/
theorem eval_div_nullIf {a b : Arithmetic} (ha : a.eval row = .ok x)
    (hb : b.eval row = .ok y) :
    (Arithmetic.binary .div a (.nullIf b (.number 0))).eval row =
      .ok (Operator.div.value x y) := by
  simp only [eval, ha, hb, bind, Except.bind, pure, Except.pure, Arithmetic.apply]
  by_cases hzero : y = some 0
  · subst hzero
    cases x <;> simp [Operator.value]
  · simp [hzero]

/-- Neither does a division that is reached only where the denominator is not
zero. -/
theorem eval_ifEqual_div {a b : Arithmetic} (ha : a.eval row = .ok x)
    (hb : b.eval row = .ok y) :
    (Arithmetic.ifEqual b (.number 0) .null (.binary .div a b)).eval row =
      .ok (Operator.div.value x y) := by
  simp only [eval, ha, hb, bind, Except.bind, Arithmetic.apply]
  by_cases hzero : y = some 0
  · subst hzero
    cases x <;> simp [Operator.value]
  · simp [hzero]

theorem safeDivision?_mem {dialect : Dialect} {name : String}
    (h : dialect.safeDivision? = some name) : name ∈ safeDivisions := by
  cases dialect <;> simp [Dialect.safeDivision?] at h <;> subst h <;> decide

theorem call?_safeDivision {dialect : Dialect} {name : String}
    (h : dialect.safeDivision? = some name) (a b : Arithmetic) :
    call? name a b = some (.safeDivide a b) := by
  have hmem := safeDivision?_mem h
  have hname : name ≠ "NULLIF" := by
    rintro rfl
    simp [safeDivisions] at hmem
  simp [call?, hname, hmem]

/-- A division is read as one that gives null for a zero denominator, in every
style. -/
theorem Denotes.safeDivide (hleft : left.Denotes profile row x)
    (hright : right.Denotes profile row y) :
    (Expr.safeDivide left right).Denotes profile row (Operator.div.value x y) := by
  obtain ⟨a, ha, hevalLeft⟩ := hleft.operand
  obtain ⟨b, hb, hevalRight⟩ := hright.whole
  obtain ⟨c, hc, hevalGuard⟩ := hright.operand
  have hzero : IsSum [.number 0] (.number 0) := (isPrimary_number 0).isSum
  -- the style and the function of the dialect decide how the division is written
  cases hstyle : profile.divisionStyle with
  | native =>
      cases hfunction : profile.dialect.safeDivision? with
      | some name =>
          refine denotes_of_isSum rfl (a := .safeDivide a b) ?_ (by
            simp [hevalLeft, hevalRight, bind, Except.bind, pure, Except.pure])
          have hcall := IsSum.call name ha.isSum hb
            (call?_safeDivision hfunction a b)
          simpa [tokens, divisionTokens, hstyle, hfunction, operandTokens_eq,
            Piece.ofToken] using hcall.isSum
      | none =>
          refine denotes_of_isSum rfl ?_ (eval_div_nullIf hevalLeft hevalRight)
          have hnull := IsSum.call "NULLIF" hb hzero rfl
          have hdiv := ha.isSum_apply .div hnull.isUnary
          simpa [tokens, divisionTokens, hstyle, hfunction, operandTokens_eq,
            operatorSymbol, Piece.ofToken, Piece.signed] using hdiv
  | nullIf =>
      refine denotes_of_isSum rfl ?_ (eval_div_nullIf hevalLeft hevalRight)
      have hnull := IsSum.call "NULLIF" hb hzero rfl
      have hdiv := ha.isSum_apply .div hnull.isUnary
      simpa [tokens, divisionTokens, hstyle, operandTokens_eq, operatorSymbol,
        Piece.ofToken, Piece.signed] using hdiv
  | caseGuard =>
      refine denotes_of_isSum rfl ?_ (eval_ifEqual_div hevalLeft hevalGuard)
      have hdiv := ha.isSum_apply .div hc
      have hcase := hc.isSum.ifEqual hzero isPrimary_null.isSum hdiv
      simpa [tokens, divisionTokens, hstyle, operandTokens_eq, operatorSymbol,
        Piece.ofToken, Piece.signed] using hcase.isSum

end Expr

theorem Expr.Denotes.apply {profile : Profile} {row : String → String → Option ℚ}
    {left right : Expr} {x y : Option ℚ} (operator : Operator)
    (hleft : left.Denotes profile row x) (hright : right.Denotes profile row y) :
    (operator.apply left right).Denotes profile row (operator.value x y) := by
  cases operator with
  | div => exact hleft.safeDivide hright
  | add => exact hleft.binary (by simp) hright
  | sub => exact hleft.binary (by simp) hright
  | mul => exact hleft.binary (by simp) hright

/-! ## Compiled formulas -/

theorem Formula.denotes_compile {input : Plan} {metric : String} {formula : Formula}
    {e : Expr} {dataType : Option DataType} (profile : Profile)
    (inputs : String → Option ℚ)
    (h : formula.compile input metric = .ok (e, dataType)) :
    e.Denotes profile (input.inputRow inputs) (formula.value inputs) := by
  induction formula generalizing e dataType with
  | input name =>
      simp only [Formula.compile] at h
      split at h
      next =>
        cases h
        have hvalue : input.inputRow inputs input.aliasName name = inputs name := by
          simp [Plan.inputRow]
        rw [Formula.value, ← hvalue]
        exact Expr.denotes_column input.aliasName name
      next => cases h
  | literal value =>
      simp only [Formula.compile] at h
      split at h
      next =>
        cases h
        exact Expr.denotes_float value
      next => cases h
  | neg operand ih =>
      simp only [Formula.compile, bind_eq_ok] at h
      obtain ⟨⟨inner, innerType⟩, hinner, ⟨⟩⟩ := h
      exact (ih hinner).neg
  | binary operator left right ihleft ihright =>
      simp only [Formula.compile, bind_eq_ok] at h
      obtain ⟨⟨l, leftType⟩, hleft, ⟨r, rightType⟩, hright, ⟨⟩⟩ := h
      exact (ihleft hleft).apply operator (ihright hright)
  | ratio numerator denominator ihnum ihden =>
      simp only [Formula.compile, bind_eq_ok] at h
      obtain ⟨⟨num, numType⟩, hnum, ⟨den, denType⟩, hden, ⟨⟩⟩ := h
      exact (ihnum hnum).castFloat.safeDivide (ihden hden).castFloat

/-- The tokens of a compiled formula are arithmetic with the value that the
formula denotes, for every profile; evaluating it divides by no zero. -/
theorem Formula.read?_tokens_compile {input : Plan} {metric : String}
    {formula : Formula} {e : Expr} {dataType : Option DataType}
    (h : formula.compile input metric = .ok (e, dataType))
    (inputs : String → Option ℚ) (profile : Profile) :
    ∃ a, Arithmetic.read? (e.tokens profile) = some a ∧
      a.eval (input.inputRow inputs) = .ok (formula.value inputs) := by
  obtain ⟨a, hsum, heval⟩ := (denotes_compile profile inputs h).whole
  exact ⟨a, hsum.read?, heval⟩

namespace Sample

def amounts : Plan :=
  .aggregate "subq_1"
    (.read "subq_0" "bookings" { name := "fct_bookings" } "bookings_src_0" [])
    ⟨[], by decide⟩ [⟨"amount", .sum⟩]
    [⟨"amount", .sum (.of "subq_0" "amount"), .measure, some .int⟩]

/-- An amount less a negated ratio, whose denominator is zero for the amount 3. -/
def change : Formula :=
  .binary .sub (.input "amount")
    (.neg (.ratio (.input "amount") (.binary .sub (.input "amount") (.literal 3.0))))

def guarded : Profile := { dialect := .mysql, division := some .caseGuard }

theorem change_eval :
    ∃ e dataType, change.compile amounts "change" = .ok (e, dataType) ∧
      ∃ a, Arithmetic.read? (e.tokens guarded) = some a ∧
        a.eval (amounts.inputRow fun _ => some 3) = .ok none := by
  have hok : (change.compile amounts "change").isOk = true := by decide +kernel
  have hvalue : change.value (fun _ => some 3) = none := by decide +kernel
  cases hcompile : change.compile amounts "change" with
  | error failure =>
      rw [hcompile] at hok
      cases hok
  | ok compiled =>
      obtain ⟨e, dataType⟩ := compiled
      refine ⟨e, dataType, rfl, ?_⟩
      rw [← hvalue]
      exact Formula.read?_tokens_compile hcompile _ guarded

end Sample

end MetricSql
