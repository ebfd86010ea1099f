import MetricSql.Proofs.Expr.Parts
import MetricSql.Proofs.Lexeme.Token
import MetricSql.Plan.Render

/-!
# Spacing

Expressions and queries are written so that neighbouring tokens fit: words and
numbers are followed by delimiters, and no minus sign by another one.
-/

namespace MetricSql

open Token

/-! ## Sequences that fit -/

namespace Token

/-- The tokens that anything can follow. -/
def isFree : Token → Bool
  | symbol .minus | symbol .slash | symbol .lt | symbol .dot => false
  | symbol _ | space | newline | indent _ => true
  | _ => false

/-- The tokens that every delimiter can follow. -/
def isClosing : Token → Bool
  | symbol .slash | symbol .lt | symbol .dot | symbol .minus | comment _ => false
  | _ => true

theorem mayPrecede_of_isFree {token : Token} (h : token.isFree = true) (next : Token) :
    token.mayPrecede next = true := by
  cases token with
  | symbol s => cases s <;> simp [isFree, mayPrecede] at h ⊢
  | space => rfl
  | newline => rfl
  | indent levels => rfl
  | _ => cases h

theorem mayPrecede_of_isDelimiter {token next : Token} (h : token.isClosing = true)
    (hnext : next.isDelimiter = true) : token.mayPrecede next = true := by
  cases token with
  | symbol s => cases s <;> simp [isClosing, mayPrecede] at h ⊢
  | comment line => cases h
  | ident name =>
      cases next with
      | symbol s => cases s <;> simp [isDelimiter, mayPrecede] at hnext ⊢
      | _ => exact hnext
  | space => rfl
  | newline => rfl
  | indent levels => rfl
  | _ => exact hnext

end Token

/-- The sequence is empty or starts with a delimiter. -/
def StartsDelimited (tokens : List Token) : Prop :=
  ∀ first ∈ tokens.head?, first.isDelimiter = true

theorem StartsDelimited.append {front back : List Token} (hfront : StartsDelimited front)
    (hback : StartsDelimited back) : StartsDelimited (front ++ back) := by
  cases front with
  | nil => exact hback
  | cons first rest => exact hfront

namespace Spaced

theorem nil : Spaced [] := ⟨by simp, by simp⟩

theorem cons {token : Token} {tokens : List Token} (hwritten : token.isWritten = true)
    (hclosing : token.isClosing = true) (hstart : StartsDelimited tokens)
    (h : Spaced tokens) : Spaced (token :: tokens) := by
  refine ⟨?_, ?_⟩
  · intro t ht
    rcases List.mem_cons.mp ht with rfl | ht
    · exact hwritten
    · exact h.written t ht
  · intro next hnext
    rw [List.cons_append, List.isChain_cons]
    refine ⟨?_, h.chain next hnext⟩
    intro first hfirst
    apply mayPrecede_of_isDelimiter hclosing
    cases tokens with
    | nil =>
        have heq : first = next := by simpa using hfirst.symm
        rw [heq]
        exact hnext
    | cons second rest => exact hstart first (by simpa using hfirst)

theorem cons_free {token : Token} {tokens : List Token}
    (hfree : token.isFree = true) (h : Spaced tokens) : Spaced (token :: tokens) := by
  refine ⟨?_, ?_⟩
  · intro t ht
    rcases List.mem_cons.mp ht with rfl | ht
    · cases t <;> simp [isFree, isWritten] at hfree ⊢
    · exact h.written t ht
  · intro next hnext
    rw [List.cons_append, List.isChain_cons]
    exact ⟨fun first _ => mayPrecede_of_isFree hfree first, h.chain next hnext⟩

theorem append {front back : List Token} (hfront : Spaced front)
    (hstart : StartsDelimited back) (hback : Spaced back) : Spaced (front ++ back) := by
  cases back with
  | nil => simpa using hfront
  | cons first rest =>
      refine ⟨?_, ?_⟩
      · intro t ht
        rcases List.mem_append.mp ht with ht | ht
        · exact hfront.written t ht
        · exact hback.written t ht
      · intro next hnext
        have hfirst : first.isDelimiter = true := hstart first rfl
        rw [List.append_assoc, List.cons_append, List.isChain_split]
        exact ⟨hfront.chain first hfirst, hback.chain next hnext⟩

/-- A token before one that can follow it. -/
theorem cons_next {token next : Token} {tokens : List Token}
    (hwritten : token.isWritten = true) (hfits : token.mayPrecede next = true)
    (h : Spaced (next :: tokens)) : Spaced (token :: next :: tokens) := by
  refine ⟨?_, ?_⟩
  · intro t ht
    rcases List.mem_cons.mp ht with rfl | ht
    · exact hwritten
    · exact h.written t ht
  · intro delimiter hdelimiter
    rw [List.cons_append, List.isChain_cons]
    refine ⟨?_, h.chain delimiter hdelimiter⟩
    intro first hfirst
    have heq : first = next := by simpa using hfirst.symm
    rw [heq]
    exact hfits

theorem cons_space {token : Token} {tokens : List Token} (hwritten : token.isWritten = true)
    (hspace : token.mayPrecede .space = true) (h : Spaced tokens) :
    Spaced (token :: .space :: tokens) :=
  (h.cons_free rfl).cons_next hwritten hspace

/-- The operator between two operands, with spaces around it. -/
theorem operator {left right : List Token} (op : Token) (hop : op.isWritten = true)
    (hspace : op.mayPrecede .space = true) (hleft : Spaced left) (hright : Spaced right) :
    Spaced (left ++ [.space, op, .space] ++ right) := by
  have hback : Spaced (.space :: op :: .space :: right) :=
    (hright.cons_space hop hspace).cons_free rfl
  rw [List.append_assoc]
  exact hleft.append (by simp [StartsDelimited, isDelimiter]) hback

theorem single {token : Token} (hwritten : token.isWritten = true)
    (hclosing : token.isClosing = true) : Spaced [token] :=
  nil.cons hwritten hclosing (by simp [StartsDelimited])

/-- The name of a column after that of its relation. -/
theorem qualified (table name : String) :
    Spaced [ident table, Token.symbol .dot, ident name] := by
  refine ⟨by simp [isWritten], fun next hnext => ?_⟩
  have hlast : (ident name).mayPrecede next = true := mayPrecede_of_isDelimiter rfl hnext
  simp only [List.cons_append, List.nil_append, List.isChain_cons_cons]
  exact ⟨rfl, rfl, hlast, .singleton next⟩

theorem parenthesized {tokens : List Token} (h : Spaced tokens) :
    Spaced (Expr.parenthesized tokens) := by
  have hclose : Spaced [Token.symbol .rparen] := single rfl rfl
  exact (h.append (by simp [StartsDelimited, isDelimiter]) hclose).cons_free rfl

theorem callTokens {name : String} {args : List Token}
    (hname : Text.isPlain (Text.upper name) = true) (h : Spaced args) :
    Spaced (Expr.callTokens name args) :=
  h.parenthesized.cons hname rfl (by simp [StartsDelimited, isDelimiter, Expr.parenthesized])

/-- Two arguments of a call. -/
theorem separated {first second : List Token} (hfirst : Spaced first)
    (hsecond : Spaced second) : Spaced (first ++ Expr.separator ++ second) := by
  have hback : Spaced (Token.symbol .comma :: .space :: second) :=
    (hsecond.cons_free rfl).cons_free rfl
  rw [List.append_assoc]
  exact hfirst.append (by simp [StartsDelimited, isDelimiter, Expr.separator]) hback

end Spaced

/-! ## Expressions -/

namespace Expr

/-- Whether the text starts with a minus sign.  A division is written with its
numerator in front, which `startsWithMinus` does not look at. -/
def leadsWithMinus : Expr → Bool
  | int value => value < 0
  | float value => Decimal.isNegative value
  | neg _ => true
  | binary _ left _ => left.leadsWithMinus
  | isNull operand => operand.leadsWithMinus
  | safeDivide numerator _ => !numerator.isCompound && numerator.leadsWithMinus
  | _ => false

/-- Whether an expression, apart from its parts, is written in words that stay
apart. -/
def isWritten : Expr → Bool
  | call name _ _ => Text.isPlain (Text.upper name)
  | neg operand => !operand.leadsWithMinus || operand.startsWithMinus
  | raw _ => false
  | _ => true

/-- Tokens that fit, the first of them a minus sign or signed only if that is said. -/
structure Phrase (signed : Bool) (tokens : List Token) : Prop where
  spaced : Spaced tokens
  head : ∃ first rest, tokens = first :: rest ∧
    (signed = false → first.startsUnsigned = true)

theorem Phrase.ofSpaced {first : Token} {rest : List Token} {signed : Bool}
    (h : Spaced (first :: rest)) (hfirst : first.startsUnsigned = true) :
    Phrase signed (first :: rest) :=
  ⟨h, first, rest, rfl, fun _ => hfirst⟩

theorem Phrase.parenthesized {signed signed' : Bool} {tokens : List Token}
    (h : Phrase signed tokens) : Phrase signed' (Expr.parenthesized tokens) :=
  .ofSpaced h.spaced.parenthesized rfl

theorem Phrase.append {signed : Bool} {front back : List Token} (h : Phrase signed front)
    (hback : Spaced (front ++ back)) : Phrase signed (front ++ back) := by
  obtain ⟨first, rest, rfl, hfirst⟩ := h.head
  exact ⟨hback, first, rest ++ back, rfl, hfirst⟩

theorem Phrase.operandTokens {e : Expr} {tokens : List Token}
    (h : Phrase e.leadsWithMinus tokens) :
    Phrase (!e.isCompound && e.leadsWithMinus) (e.operandTokens tokens) := by
  unfold Expr.operandTokens
  cases hcompound : e.isCompound with
  | true => exact h.parenthesized
  | false => exact h

theorem Phrase.callTokens {signed : Bool} {name : String} {args : List Token}
    (hname : Text.isPlain (Text.upper name) = true) (h : Spaced args) :
    Phrase signed (Expr.callTokens name args) :=
  .ofSpaced (h.callTokens hname) rfl

/-- A minus sign before an operand that has none. -/
theorem Phrase.minus {tokens : List Token} (h : Phrase false tokens) :
    Phrase true (.symbol .minus :: tokens) := by
  obtain ⟨first, rest, rfl, hfirst⟩ := h.head
  exact ⟨h.spaced.cons_next rfl (hfirst rfl), _, _, rfl, by simp⟩

/-! ### What a dialect spells out -/

end Expr

def TruncationCall.function : TruncationCall → String
  | quotedPartFirst name | keywordPartFirst name | keywordPartLast name => name

def PercentileCall.function : PercentileCall → String
  | withinGroup name | plain name => name

theorem isWritten_datePart (dialect : Dialect) (grain : Grain) :
    Token.isWritten (.verbatim (Text.upper (dialect.datePart grain))) = true := by
  have hweek : Token.isWritten (.verbatim (Text.upper "isoweek")) = true := by decide +kernel
  have hname : Token.isWritten (.verbatim (Text.upper grain.name)) = true := by
    cases grain <;> decide +kernel
  unfold Dialect.datePart
  split
  next => exact hweek
  next => exact hname

namespace Expr

theorem Phrase.caseWhen {tokens : List Token} (h : Spaced tokens) (signed : Bool) :
    Phrase signed (Token.keyword .CASE :: space :: Token.keyword .WHEN :: space :: tokens) :=
  .ofSpaced ((h.cons_space rfl rfl).cons_space rfl rfl) rfl

theorem Phrase.divisionTokens {profile : Profile} {signed : Bool}
    {numerator denominator guarded : List Token} (hnumerator : Phrase signed numerator)
    (hdenominator : Spaced denominator) (hguarded : Spaced guarded) :
    Phrase signed (Expr.divisionTokens profile numerator denominator guarded) := by
  have hslash : ∀ {right}, Spaced right →
      Spaced (numerator ++ [space, Token.symbol .slash, space] ++ right) :=
    fun hright => hnumerator.spaced.operator _ rfl rfl hright
  unfold Expr.divisionTokens
  split
  next name _ hname =>
    have hplain : Text.isPlain (Text.upper name) = true := by
      cases hdialect : profile.dialect <;> rw [hdialect] at hname <;> cases hname <;> decide
    exact .callTokens hplain (hnumerator.spaced.separated hdenominator)
  next =>
    have hend : Spaced [space, Token.keyword .END] :=
      (Spaced.single rfl rfl).cons_free rfl
    have hquotient : Spaced (numerator ++ [space, Token.symbol .slash, space] ++
        (guarded ++ [space, Token.keyword .END])) :=
      hslash (hguarded.append (by simp [StartsDelimited, isDelimiter]) hend)
    have htest : Spaced (space :: Token.symbol .eq :: space :: Token.int 0 :: space ::
        Token.keyword .THEN :: space :: Token.keyword .NULL :: space ::
        Token.keyword .ELSE :: space :: (numerator ++ [space, Token.symbol .slash, space] ++
          (guarded ++ [space, Token.keyword .END]))) :=
      (((((hquotient.cons_space rfl rfl).cons_space rfl rfl).cons_space rfl rfl).cons_space
        rfl rfl).cons_space rfl rfl).cons_free rfl
    have hguard := hguarded.append (by simp [StartsDelimited, isDelimiter]) htest
    simpa using Phrase.caseWhen hguard signed
  next =>
    have hzero : Spaced [Token.int 0] := .single rfl rfl
    have hnullIf : Spaced (Expr.callTokens "NULLIF" (denominator ++ separator ++
        [Token.int 0])) :=
      (hdenominator.separated hzero).callTokens (by decide)
    rw [List.append_assoc]
    refine hnumerator.append ?_
    rw [← List.append_assoc]
    exact hslash hnullIf

theorem Phrase.truncationTokens {profile : Profile} {grain : Grain} {signed : Bool}
    {inner : List Token} (hinner : Spaced inner) :
    Phrase signed (Expr.truncationTokens profile grain inner) := by
  have hcall : Text.isPlain (Text.upper
      (profile.dialect.truncation?.getD usualTruncation).function) = true := by
    cases profile.dialect <;> decide +kernel
  have hpart := isWritten_datePart profile.dialect grain
  unfold Expr.truncationTokens
  simp only []
  split
  next name hname =>
    rw [hname] at hcall
    exact .callTokens hcall ((Spaced.single rfl rfl).separated hinner)
  next name hname =>
    rw [hname] at hcall
    exact .callTokens hcall ((Spaced.single hpart rfl).separated hinner)
  next name hname =>
    rw [hname] at hcall
    exact .callTokens hcall (hinner.separated (.single hpart rfl))

theorem Phrase.percentileTokens {profile : Profile} {fraction : Float}
    {discrete approximate signed : Bool} {inner : List Token} (hinner : Spaced inner) :
    Phrase signed
      (Expr.percentileTokens profile fraction discrete approximate inner) := by
  have hcall : Text.isPlain (Text.upper ((profile.dialect.percentile? discrete
      approximate).getD (usualPercentile discrete)).function) = true := by
    cases profile.dialect <;> cases discrete <;> cases approximate <;> decide +kernel
  have hfraction : Spaced [Token.float fraction] := .single rfl rfl
  unfold Expr.percentileTokens
  split
  next name hname =>
    rw [hname] at hcall
    have horder : Spaced (Expr.parenthesized (Token.keyword .ORDER_BY :: space :: inner)) :=
      (hinner.cons_space rfl rfl).parenthesized
    have hfunction : Spaced (Expr.callTokens name [Token.float fraction]) :=
      hfraction.callTokens hcall
    exact .ofSpaced (hfunction.operator (Token.keyword .WITHIN_GROUP) rfl rfl horder) rfl
  next name hname =>
    rw [hname] at hcall
    exact .callTokens hcall (hinner.separated hfraction)

theorem startsDelimited_moreArgTokens (profile : Profile) (args : List Expr) :
    StartsDelimited (moreArgTokens profile args) := by
  cases args <;> simp [moreArgTokens, separator, StartsDelimited, isDelimiter]

theorem startsDelimited_branchTokens (profile : Profile) (branches : List (Expr × Expr)) :
    StartsDelimited (branchTokens profile branches) := by
  cases branches <;> simp [branchTokens, StartsDelimited, isDelimiter]

theorem startsDelimited_otherwiseTokens (profile : Profile) (otherwise : Option Expr) :
    StartsDelimited (otherwiseTokens profile otherwise) := by
  cases otherwise <;> simp [otherwiseTokens, StartsDelimited, isDelimiter]

theorem Phrase.caseTokens {signed : Bool} {front back : List Token}
    (hfront : Spaced front) (hback : Spaced back) (hfrontStart : StartsDelimited front)
    (hbackStart : StartsDelimited back) :
    Phrase signed (Token.keyword .CASE :: (front ++ back ++ [space, Token.keyword .END])) := by
  have hend : Spaced [space, Token.keyword .END] := (Spaced.single rfl rfl).cons_free rfl
  have hendStart : StartsDelimited (back ++ [space, Token.keyword .END]) :=
    hbackStart.append (by simp [StartsDelimited, isDelimiter])
  have hrest := hback.append (by simp [StartsDelimited, isDelimiter]) hend
  rw [List.append_assoc]
  exact .ofSpaced ((hfront.append hendStart hrest).cons rfl rfl (hfrontStart.append hendStart)) rfl

theorem Phrase.castTokens {profile : Profile} {signed : Bool} {inner : List Token}
    (hinner : Spaced inner) :
    Phrase signed (Token.keyword .CAST :: Expr.parenthesized
      (inner ++ [space, Token.keyword .AS, space, .verbatim profile.dialect.floatType])) := by
  have hwritten : Token.isWritten (.verbatim profile.dialect.floatType) = true := by
    cases profile.dialect <;> decide
  have htype : Spaced [space, Token.keyword .AS, space, .verbatim profile.dialect.floatType] :=
    ((Spaced.single hwritten rfl).cons_space rfl rfl).cons_free rfl
  have hcast := hinner.append (by simp [StartsDelimited, isDelimiter]) htype
  exact .ofSpaced (hcast.parenthesized.cons rfl rfl
    (by simp [StartsDelimited, isDelimiter, Expr.parenthesized])) rfl

/-! ### Lists inside an expression -/

section Lists

variable {profile : Profile}

theorem spaced_moreArgTokens {args : List Expr} (h : ∀ arg ∈ args, Spaced (arg.tokens profile)) :
    Spaced (moreArgTokens profile args) := by
  induction args with
  | nil => exact .nil
  | cons arg rest ih =>
      obtain ⟨harg, hrest⟩ := List.forall_mem_cons.mp h
      have hargs := harg.append (startsDelimited_moreArgTokens profile rest) (ih hrest)
      rw [moreArgTokens, List.append_assoc]
      exact (hargs.cons_free rfl).cons_free rfl

theorem spaced_argTokens {args : List Expr} (h : ∀ arg ∈ args, Spaced (arg.tokens profile)) :
    Spaced (argTokens profile args) := by
  cases args with
  | nil => exact .nil
  | cons arg rest =>
      obtain ⟨harg, hrest⟩ := List.forall_mem_cons.mp h
      rw [argTokens]
      exact harg.append (startsDelimited_moreArgTokens profile rest) (spaced_moreArgTokens hrest)

theorem spaced_branchTokens {branches : List (Expr × Expr)}
    (h : ∀ branch ∈ branches,
      Spaced (branch.1.tokens profile) ∧ Spaced (branch.2.tokens profile)) :
    Spaced (branchTokens profile branches) := by
  induction branches with
  | nil => exact .nil
  | cons branch rest ih =>
      obtain ⟨condition, result⟩ := branch
      obtain ⟨⟨hcondition, hresult⟩, hrest⟩ := List.forall_mem_cons.mp h
      have hback := hresult.append (startsDelimited_branchTokens profile rest) (ih hrest)
      have hthen := hcondition.operator (.keyword .THEN) rfl rfl hback
      have hwhen : Spaced (space :: .keyword .WHEN :: space :: (condition.tokens profile ++
          [space, .keyword .THEN, space] ++
          (result.tokens profile ++ branchTokens profile rest))) :=
        (hthen.cons_space rfl rfl).cons_free rfl
      rw [branchTokens]
      simpa using hwhen

theorem spaced_otherwiseTokens {otherwise : Option Expr}
    (h : ∀ e ∈ otherwise, Spaced (e.tokens profile)) :
    Spaced (otherwiseTokens profile otherwise) := by
  cases otherwise with
  | none => exact .nil
  | some e =>
      have he := h e rfl
      rw [otherwiseTokens]
      exact (he.cons_space rfl rfl).cons_free rfl

end Lists

attribute [local simp] children

/-- An expression is a phrase, whatever its names are. -/
theorem phrase_tokens (profile : Profile) (e : Expr)
    (h : ∀ part ∈ e.parts, part.isWritten = true) :
    Phrase e.leadsWithMinus (e.tokens profile) := by
  refine parts_induction (fun e hself _ ih => ?_) e h
  cases e with
  | column table name =>
      cases table with
      | none =>
          rw [tokens]
          exact .ofSpaced (.single rfl rfl) rfl
      | some table =>
          rw [tokens]
          exact .ofSpaced (.qualified table name) rfl
  | int value =>
      rw [tokens]
      refine ⟨.single rfl rfl, _, _, rfl, fun hsign => ?_⟩
      simpa [leadsWithMinus, startsUnsigned] using hsign
  | float value =>
      rw [tokens]
      refine ⟨.single rfl rfl, _, _, rfl, fun hsign => ?_⟩
      simpa [leadsWithMinus, startsUnsigned] using hsign
  | binary op left right =>
      have hleft := ih left (by simp)
      have hright := ih right (by simp)
      have hop : op.token.isWritten = true := by cases op <;> rfl
      have hspace : op.token.mayPrecede .space = true := by cases op <;> rfl
      rw [tokens, leadsWithMinus, List.append_assoc]
      refine hleft.append ?_
      rw [← List.append_assoc]
      exact hleft.spaced.operator _ hop hspace hright.spaced
  | neg operand =>
      have hoperand := ih operand (by simp)
      rw [tokens, leadsWithMinus]
      split
      next => exact Phrase.minus hoperand.parenthesized
      next hunsigned =>
        have hleads : operand.leadsWithMinus = false := by
          simpa [isWritten, hunsigned] using hself
        rw [hleads] at hoperand
        exact hoperand.minus
  | isNull operand =>
      have hoperand := ih operand (by simp)
      have hnull : Spaced [space, Token.keyword .IS, space, Token.keyword .NULL] :=
        ((Spaced.single rfl rfl).cons_space rfl rfl).cons_free rfl
      rw [tokens, leadsWithMinus]
      refine hoperand.append ?_
      exact hoperand.spaced.append (by simp [StartsDelimited, isDelimiter]) hnull
  | call name args distinct =>
      have hargs : Spaced (argTokens profile args) :=
        spaced_argTokens fun arg harg => (ih arg harg).spaced
      rw [tokens]
      refine .callTokens hself ?_
      cases distinct with
      | false => simpa using hargs
      | true => exact hargs.cons_space rfl rfl
  | case branches otherwise =>
      obtain ⟨hbranches, hotherwise⟩ := forall_children_case ih
      have hfront : Spaced (branchTokens profile branches) :=
        spaced_branchTokens fun branch hbranch =>
          ⟨(hbranches branch hbranch).1.spaced, (hbranches branch hbranch).2.spaced⟩
      have hback : Spaced (otherwiseTokens profile otherwise) :=
        spaced_otherwiseTokens fun e he => (hotherwise e he).spaced
      rw [tokens]
      exact .caseTokens hfront hback (startsDelimited_branchTokens profile branches)
        (startsDelimited_otherwiseTokens profile otherwise)
  | paren inner =>
      have hinner := ih inner (by simp)
      rw [tokens]
      exact hinner.parenthesized
  | castFloat inner =>
      have hinner := ih inner (by simp)
      rw [tokens]
      exact .castTokens hinner.spaced
  | safeDivide numerator denominator =>
      have hnumerator := ih numerator (by simp)
      have hdenominator := ih denominator (by simp)
      rw [tokens, leadsWithMinus]
      exact hnumerator.operandTokens.divisionTokens hdenominator.spaced
        hdenominator.operandTokens.spaced
  | dateTrunc grain inner =>
      have hinner := ih inner (by simp)
      rw [tokens]
      exact .truncationTokens hinner.spaced
  | percentile inner fraction discrete approximate =>
      have hinner := ih inner (by simp)
      rw [tokens]
      exact .percentileTokens hinner.spaced
  | raw sql =>
      cases hself

end Expr

end MetricSql
