import MetricSql.Expr.Basic
import MetricSql.Statement.Parser
import Mathlib.Tactic

/-!
# Reading expressions

An expression is read from a sequence of operands with operators between them and
tests against null after them.  Whatever the precedences are, nothing of such a
sequence is left over: a reader that stops at a weak operator hands it to the one
that called it.  The statements are about an input with anything behind it that
cannot go on with the expression, and about fuel in proportion to its length.
-/

namespace MetricSql

namespace Lexeme

/-- The lexemes that go on with a name or a call before them. -/
def extendsOperand : Lexeme → Bool
  | symbol text => text == "(" || text == "."
  | word text => lowerAscii text == "within"
  | _ => false

/-- The lexemes that end an expression. -/
def endsTerm (lexeme : Lexeme) : Bool :=
  !lexeme.extendsOperand && (Statement.operator? [lexeme]).isNone &&
    !Statement.startsWith "is" [lexeme]

/-- The lexemes that an expression can start with where keywords are looked for. -/
def opensTerm : Lexeme → Bool
  | symbol text => text == "-" || text == "("
  | word text => !(["distinct", "all"].contains (lowerAscii text))
  | _ => true

end Lexeme

namespace BinaryOp

def lexeme : BinaryOp → Lexeme
  | eq => .symbol "="
  | gtEq => .symbol ">="
  | lt => .symbol "<"
  | and => .word "AND"
  | or => .word "OR"
  | add => .symbol "+"
  | sub => .symbol "-"
  | mul => .symbol "*"
  | div => .symbol "/"

def level : BinaryOp → Nat
  | or => Statement.orLevel
  | and => Statement.andLevel
  | eq | gtEq | lt => Statement.compareLevel
  | add | sub => Statement.sumLevel
  | mul | div => Statement.productLevel

theorem level_pos (op : BinaryOp) : 0 < op.level := by
  cases op <;> decide

end BinaryOp

namespace Statement

/-! ## What stands behind -/

/-- The input does not go on with an operand before it. -/
def Follows (rest : Input) : Prop := ∀ first ∈ rest.head?, first.extendsOperand = false

/-- The input does not go on with an expression before it. -/
def Stops (rest : Input) : Prop := ∀ first ∈ rest.head?, first.endsTerm = true

theorem stops_nil : Stops [] := by simp [Stops]

theorem stops_cons {first : Lexeme} (h : first.endsTerm = true) (rest : Input) :
    Stops (first :: rest) := by
  simpa [Stops] using h

theorem Stops.follows {rest : Input} (h : Stops rest) : Follows rest := by
  intro first hfirst
  have hends := h first hfirst
  simp only [Lexeme.endsTerm, Bool.and_eq_true, Bool.not_eq_true'] at hends
  exact hends.1.1

theorem keyword?_cons (keyword : String) (first : Lexeme) (rest : Input) :
    keyword? keyword (first :: rest) =
      if startsWith keyword [first] then some rest else none := by
  cases first <;> simp [keyword?, startsWith]

theorem operator?_cons_eq_none {first : Lexeme} (h : operator? [first] = none)
    (rest : Input) : operator? (first :: rest) = none := by
  cases first with
  | symbol text => simpa [operator?] using h
  | word text =>
      by_cases hor : lowerAscii text = "or"
      · simp [operator?, hor] at h
      · by_cases hand : lowerAscii text = "and"
        · simp [operator?, hand] at h
        · simp [operator?, hor, hand]
  | _ => rfl

theorem Stops.keyword?_is {rest : Input} (h : Stops rest) : keyword? "is" rest = none := by
  cases rest with
  | nil => rfl
  | cons first rest =>
      have hends := h first rfl
      simp only [Lexeme.endsTerm, Bool.and_eq_true, Bool.not_eq_true'] at hends
      rw [keyword?_cons, hends.2]
      rfl

theorem Stops.operator? {rest : Input} (h : Stops rest) : operator? rest = none := by
  cases rest with
  | nil => rfl
  | cons first rest =>
      have hends := h first rfl
      simp only [Lexeme.endsTerm, Bool.and_eq_true, Option.isNone_iff_eq_none] at hends
      exact operator?_cons_eq_none hends.1.2 rest

theorem Stops.continue? {rest : Input} (h : Stops rest) (fuel level : Nat) (left : Term) :
    continue? (fuel + 1) level left rest = some (left, rest) := by
  rw [Statement.continue?, h.keyword?_is, h.operator?]

theorem operator?_lexeme (op : BinaryOp) (rest : Input) :
    ∃ name, operator? (op.lexeme :: rest) = some (name, op.level, rest) := by
  cases op <;> exact ⟨_, rfl⟩

theorem keyword?_is_lexeme (op : BinaryOp) (rest : Input) :
    keyword? "is" (op.lexeme :: rest) = none := by
  cases op <;> rfl

theorem operator?_le {input rest : Input} {name : String} {binding : Nat}
    (h : operator? input = some (name, binding, rest)) : binding ≤ productLevel := by
  unfold Statement.operator? at h
  split at h
  next text rest' =>
    obtain ⟨level, hlevel, heq⟩ := Option.map_eq_some_iff.mp h
    cases heq
    unfold symbolLevel? at hlevel
    split at hlevel
    · cases hlevel
      decide
    · split at hlevel
      · cases hlevel
        decide
      · split at hlevel
        · cases hlevel
          decide
        · cases hlevel
  next text rest' =>
    split at h
    · cases h
      decide
    · split at h
      · cases h
        decide
      · cases h
  next => cases h

/-- Nothing binds more strongly than products. -/
theorem continue?_productLevel (fuel : Nat) (left : Term) (input : Input) :
    continue? (fuel + 1) productLevel left input = some (left, input) := by
  rw [Statement.continue?]
  split
  next => simp [productLevel, compareLevel]
  next =>
    split
    next name binding rest hoperator =>
      have hle := operator?_le hoperator
      rw [if_neg (by omega)]
    next => rfl

/-! ## Operands and what continues them -/

/-- An operand is read up to its end. -/
structure Operand (lexemes : Input) : Prop where
  reads : ∀ (fuel : Nat) {rest : Input}, 8 * lexemes.length ≤ fuel + 1 → Follows rest →
    ∃ term, operand? fuel (lexemes ++ rest) = some (term, rest)
  starless : ∀ {rest : Input}, Follows rest → starPath? (lexemes ++ rest) = none
  opens : ∃ first more, lexemes = first :: more ∧ first.opensTerm = true

/-- Operators with their right operands, and tests against null. -/
inductive Tail : Input → Prop
  | nil : Tail []
  | operator (op : BinaryOp) {operand tail : Input} (hoperand : Operand operand)
      (htail : Tail tail) : Tail (op.lexeme :: (operand ++ tail))
  | isNull {tail : Input} (htail : Tail tail) : Tail (.word "IS" :: .word "NULL" :: tail)

theorem Tail.follows {tail rest : Input} (htail : Tail tail) (hrest : Follows rest) :
    Follows (tail ++ rest) := by
  cases htail with
  | nil => exact hrest
  | operator op hoperand htail =>
      intro first hfirst
      have heq : first = op.lexeme := by simpa using hfirst.symm
      rw [heq]
      cases op <;> rfl
  | isNull htail =>
      intro first hfirst
      have heq : first = .word "IS" := by simpa using hfirst.symm
      rw [heq]
      rfl

theorem Tail.append {front back : Input} (hfront : Tail front) (hback : Tail back) :
    Tail (front ++ back) := by
  induction hfront with
  | nil => exact hback
  | operator op hoperand htail ih =>
      rw [List.cons_append, List.append_assoc]
      exact .operator op hoperand ih
  | isNull htail ih => exact .isNull ih

/-- Readers at all levels together read the whole tail: a reader that stops leaves
another tail, and the reader at the lowest level never stops. -/
theorem Tail.continue? {tail rest : Input} (htail : Tail tail) (hrest : Stops rest) :
    ∀ (fuel level : Nat) (left : Term), 8 * tail.length < fuel →
      ∃ term tail', Tail tail' ∧ tail'.length ≤ tail.length ∧ (level = 0 → tail' = []) ∧
        continue? fuel level left (tail ++ rest) = some (term, tail' ++ rest) := by
  induction hlength : tail.length using Nat.strong_induction_on generalizing tail with
  | _ n ih =>
      intro fuel level left hfuel
      obtain ⟨fuel, rfl⟩ : ∃ less, fuel = less + 1 := ⟨fuel - 1, by omega⟩
      cases htail with
      | nil =>
          exact ⟨left, [], .nil, Nat.zero_le _, fun _ => rfl, hrest.continue? fuel level left⟩
      | @operator op operand tail hoperand htail =>
          simp only [List.length_cons, List.length_append] at hlength
          obtain ⟨name, hoperator⟩ := operator?_lexeme op (operand ++ tail ++ rest)
          rw [List.cons_append, Statement.continue?, keyword?_is_lexeme, hoperator]
          by_cases hlevel : level < op.level
          · obtain ⟨fuel, rfl⟩ : ∃ less, fuel = less + 1 := ⟨fuel - 1, by omega⟩
            obtain ⟨first, hfirst⟩ :=
              hoperand.reads fuel (by omega) (htail.follows hrest.follows)
            obtain ⟨right, middle, hmiddle, hle, -, hright⟩ :=
              ih tail.length (by omega) htail rfl fuel op.level first (by omega)
            obtain ⟨term, back, hback, hle', hzero, hterm⟩ :=
              ih middle.length (by omega) hmiddle rfl (fuel + 1) level
                (.binary name left right) (by omega)
            refine ⟨term, back, hback, by omega, hzero, ?_⟩
            simp only [hlevel, if_true, Statement.term?, List.append_assoc, hfirst,
              Option.bind_eq_bind, Option.bind_some, hright, hterm]
          · refine ⟨left, op.lexeme :: (operand ++ tail), .operator op hoperand htail,
              by simp only [List.length_cons, List.length_append]; omega, ?_, ?_⟩
            · have hpos := op.level_pos
              omega
            · simp only [hlevel, if_false, List.cons_append]
      | @isNull tail htail =>
          simp only [List.length_cons] at hlength
          have his : keyword? "is" (.word "IS" :: .word "NULL" :: tail ++ rest) =
            some (.word "NULL" :: tail ++ rest) := rfl
          have hnull : isNullRest? (.word "NULL" :: tail ++ rest) =
            some (false, tail ++ rest) := rfl
          rw [Statement.continue?, his]
          by_cases hlevel : level < compareLevel
          · obtain ⟨term, back, hback, hle, hzero, hterm⟩ :=
              ih tail.length (by omega) htail rfl fuel level (.isNull left false) (by omega)
            refine ⟨term, back, hback, by omega, hzero, ?_⟩
            simp only [hlevel, if_true, hnull, Option.bind_eq_bind, Option.bind_some, hterm]
          · refine ⟨left, _, .isNull htail, by simp only [List.length_cons]; omega, ?_, ?_⟩
            · intro hzero
              rw [hzero] at hlevel
              exact absurd hlevel (by decide)
            · simp only [hlevel, if_false]

/-- An operand and its tail. -/
def Sequence (lexemes : Input) : Prop :=
  ∃ operand tail, lexemes = operand ++ tail ∧ Operand operand ∧ Tail tail

/-- The whole sequence is read as one expression. -/
theorem Sequence.reads {lexemes rest : Input} (h : Sequence lexemes) (hrest : Stops rest)
    {fuel : Nat} (hfuel : 8 * lexemes.length ≤ fuel) :
    ∃ term, term? fuel 0 (lexemes ++ rest) = some (term, rest) := by
  obtain ⟨operand, tail, rfl, hoperand, htail⟩ := h
  obtain ⟨first, more, rfl, -⟩ := hoperand.opens
  simp only [List.length_append, List.length_cons] at hfuel
  obtain ⟨fuel, rfl⟩ : ∃ less, fuel = less + 1 := ⟨fuel - 1, by omega⟩
  obtain ⟨left, hleft⟩ := hoperand.reads fuel (by simp only [List.length_cons]; omega)
    (htail.follows hrest.follows)
  obtain ⟨term, back, -, -, hzero, hterm⟩ := htail.continue? hrest fuel 0 left (by omega)
  rw [hzero rfl] at hterm
  refine ⟨term, ?_⟩
  rw [List.append_assoc, term?, hleft]
  exact hterm

theorem Sequence.continued {lexemes tail : Input} (h : Sequence lexemes) (htail : Tail tail) :
    Sequence (lexemes ++ tail) := by
  obtain ⟨operand, front, rfl, hoperand, hfront⟩ := h
  exact ⟨operand, front ++ tail, by simp, hoperand, hfront.append htail⟩

theorem Sequence.binary {left right : Input} (op : BinaryOp) (hleft : Sequence left)
    (hright : Sequence right) : Sequence (left ++ op.lexeme :: right) := by
  obtain ⟨operand, tail, rfl, hoperand, htail⟩ := hright
  exact hleft.continued (.operator op hoperand htail)

theorem Sequence.isNull {lexemes : Input} (h : Sequence lexemes) :
    Sequence (lexemes ++ [.word "IS", .word "NULL"]) :=
  h.continued (.isNull .nil)

theorem Sequence.opens {lexemes : Input} (h : Sequence lexemes) :
    ∃ first more, lexemes = first :: more ∧ first.opensTerm = true := by
  obtain ⟨operand, tail, rfl, hoperand, -⟩ := h
  obtain ⟨first, more, rfl, hfirst⟩ := hoperand.opens
  exact ⟨first, more ++ tail, rfl, hfirst⟩

theorem Sequence.starless {lexemes rest : Input} (h : Sequence lexemes)
    (hrest : Follows rest) : starPath? (lexemes ++ rest) = none := by
  obtain ⟨operand, tail, rfl, hoperand, htail⟩ := h
  rw [List.append_assoc]
  exact hoperand.starless (htail.follows hrest)

end Statement

end MetricSql
