import MetricSql.Proofs.Lexeme.Watch

/-!
# Where expressions open comments

A negation puts its operand in parentheses when that starts with a minus sign itself, but the test for it does not
look into a division, whose numerator comes first where the division is written with a slash.  So the text of an
expression opens a comment exactly when, in that style, it negates an expression whose leftmost operand is a division
of a negative number.
-/

namespace MetricSql

/-- Whether a division is written with its numerator in front. -/
def Profile.dividesInline (profile : Profile) : Bool :=
  match profile.divisionStyle, profile.dialect.safeDivision? with
  | .native, some _ => false
  | .caseGuard, _ => false
  | _, _ => true

namespace Expr

open Token

def isNegativeNumber : Expr → Bool
  | int value => value < 0
  | float value => Decimal.isNegative value
  | _ => false

/-- Whether the leftmost operand is a division of a negative number. -/
def opensWithQuotient : Expr → Bool
  | binary _ left _ => left.opensWithQuotient
  | isNull operand => operand.opensWithQuotient
  | safeDivide numerator _ => numerator.isNegativeNumber
  | _ => false

def isSigned (profile : Profile) (e : Expr) : Bool :=
  e.startsWithMinus || (profile.dividesInline && e.opensWithQuotient)

def doublesMinus (profile : Profile) : Expr → Bool
  | neg operand => profile.dividesInline && operand.opensWithQuotient
  | _ => false

/-- Whether an expression, apart from its parts, is taken from no model, calls a function of a plain name and has
finite numbers. -/
def isOrdinary : Expr → Bool
  | call name _ _ => Text.isPlain name
  | float value => Decimal.isFinite value
  | percentile _ fraction _ _ => Decimal.isFinite fraction
  | raw _ => false
  | _ => true

attribute [local simp] isSigned startsWithMinus opensWithQuotient isNegativeNumber doublesMinus parts
  children

theorem startsWithMinus_of_opensWithQuotient :
    ∀ e : Expr, e.opensWithQuotient = true → e.startsWithMinus = false
  | binary _ left _, h => startsWithMinus_of_opensWithQuotient left h
  | isNull operand, h => startsWithMinus_of_opensWithQuotient operand h
  | safeDivide _ _, _ => rfl

theorem isSigned_of_not_isCompound
    {profile : Profile} {e : Expr} (h : e.isCompound = false) (hraw : e.isOrdinary = true) :
    e.isSigned profile = e.isNegativeNumber := by
  cases e <;> simp [isCompound, isOrdinary] at h hraw <;>
    simp

theorem leads_callTokens
    {profile : Profile} {name : String} (h : Text.isPlain name = true) (args : List Token) :
    Leads profile false (callTokens name args) := by
  have hcalm : (function name).isCalm = true := h
  exact leads_of_isCalm hcalm _

theorem isPlain_safeDivision?
    {dialect : Dialect} {name : String} (h : dialect.safeDivision? = some name) :
    Text.isPlain name = true := by
  cases dialect <;> cases h <;> decide

theorem isPlain_truncation? (dialect : Dialect) :
    Text.isPlain (dialect.truncation?.getD usualTruncation).function = true := by
  cases dialect <;> decide

theorem isPlain_percentile? (dialect : Dialect) (discrete approximate : Bool) :
    Text.isPlain ((dialect.percentile? discrete approximate).getD
      (usualPercentile discrete)).function = true := by
  cases dialect <;> cases discrete <;> cases approximate <;> decide

theorem leads_divisionTokens
    {profile : Profile} {signed : Bool} {numerator denominator guarded : List Token}
    (h : Leads profile signed numerator) :
    Leads profile (profile.dividesInline && signed)
      (divisionTokens profile numerator denominator guarded) := by
  have hcase : (Token.keyword .CASE).isCalm = true := rfl
  unfold divisionTokens Profile.dividesInline
  cases hstyle : profile.divisionStyle with
  | native =>
      cases hname : profile.dialect.safeDivision? with
      | none => simpa using h.append _
      | some name => exact leads_callTokens (isPlain_safeDivision? hname) _
  | caseGuard => exact leads_of_isCalm hcase _
  | nullIf => simpa using h.append _

theorem leads_truncationTokens (profile : Profile) (grain : Grain) (inner : List Token) :
    Leads profile false (truncationTokens profile grain inner) := by
  have hplain := isPlain_truncation? profile.dialect
  unfold truncationTokens
  simp only []
  split
  all_goals
    next hcall =>
      rw [hcall] at hplain
      exact leads_callTokens hplain _

theorem leads_percentileTokens
    (profile : Profile) (fraction : Float) (discrete approximate : Bool) (inner : List Token) :
    Leads profile false (percentileTokens profile fraction discrete approximate inner) := by
  have hplain := isPlain_percentile? profile.dialect discrete approximate
  unfold percentileTokens
  split
  next hcall =>
    rw [hcall] at hplain
    rw [List.append_assoc]
    exact (leads_callTokens hplain _).append _
  next hcall =>
    rw [hcall] at hplain
    exact leads_callTokens hplain _

/-- A compound operand stands in parentheses, so only a number shows its sign. -/
theorem leads_operandTokens
    {profile : Profile} {e : Expr} (hordinary : e.isOrdinary = true)
    (h : Leads profile (e.isSigned profile) (e.tokens profile)) :
    Leads profile e.isNegativeNumber (e.operandTokens (e.tokens profile)) := by
  unfold operandTokens
  cases hcompound : e.isCompound with
  | true =>
      have hnumber : e.isNegativeNumber = false := by
        cases e <;> simp [isCompound] at hcompound ⊢
      rw [if_pos rfl, hnumber]
      exact leads_of_isCalm rfl _
  | false =>
      rw [← isSigned_of_not_isCompound hcompound hordinary]
      exact h

/-- The text of an expression starts with a minus sign if the test says so, or else if it starts with a division
that starts with one. -/
theorem leads_tokens (profile : Profile) (e : Expr)
    (h : ∀ part ∈ e.parts, part.isOrdinary = true) :
    Leads profile (e.isSigned profile) (e.tokens profile) := by
  refine parts_induction (fun e hself hbelow ih => ?_) e h
  cases e with
  | column table name =>
      cases table with
      | none =>
          rw [tokens]
          simpa using leads_ident name
      | some table =>
          rw [tokens]
          simpa using (leads_ident table).append [Token.symbol .dot, ident name]
  | int value =>
      rw [tokens]
      simpa using
        leads_signedNumeral (Decimal.isNumeral_digitsOf _) _ (written_int value)
  | float value =>
      obtain ⟨m, hwritten⟩ := written_float hself
      rw [tokens]
      simpa using
        leads_signedNumeral (Decimal.isNumeral_magnitudeText m) _ hwritten
  | binary op left right =>
      have hleft := ih left (by simp)
      rw [tokens, List.append_assoc]
      exact hleft.append _
  | neg operand =>
      rw [tokens]
      exact ⟨'-', _, by rw [written_cons, written_minus, List.singleton_append],
        by simp⟩
  | isNull operand =>
      have hoperand := ih operand (by simp)
      rw [tokens]
      exact hoperand.append _
  | call name args distinct =>
      rw [tokens]
      simpa using leads_callTokens hself _
  | case branches otherwise =>
      rw [tokens]
      simpa using leads_of_isCalm rfl _
  | paren inner =>
      rw [tokens, parenthesized]
      simpa using leads_of_isCalm rfl _
  | castFloat inner =>
      rw [tokens]
      simpa using leads_of_isCalm rfl _
  | safeDivide numerator denominator =>
      have hordinary : numerator.isOrdinary = true :=
        hbelow numerator (by simp) numerator numerator.self_mem_parts
      have hoperand := leads_operandTokens hordinary (ih numerator (by simp))
      rw [tokens]
      simpa using leads_divisionTokens hoperand
  | dateTrunc grain inner =>
      rw [tokens]
      simpa using
        leads_truncationTokens profile grain _
  | percentile inner fraction discrete approximate =>
      rw [tokens]
      simpa using
        leads_percentileTokens profile fraction discrete approximate _
  | raw sql =>
      cases hself

theorem settles_divisionTokens
    {profile : Profile} {opens opens' : Bool} {numerator denominator guarded : List Token}
    (hnumerator : Settles profile opens numerator)
    (hdenominator : Settles profile opens' denominator) (hguarded : Settles profile opens' guarded) :
    Settles profile (opens || opens') (divisionTokens profile numerator denominator guarded) := by
  have hslash : Calms profile [space, Token.symbol .slash, space] := calms_operator .div
  have hnullIf : Settles profile opens' (callTokens "NULLIF" (denominator ++ separator ++
      [Token.int 0])) := by
    have hargs := hdenominator.joined calms_separator (settles_int 0)
    rw [Bool.or_false] at hargs
    exact hargs.callTokens (by decide)
  unfold divisionTokens
  split
  next hname =>
    exact (hnumerator.joined calms_separator hdenominator).callTokens (isPlain_safeDivision? hname)
  next =>
    have hwhen : Calms profile [Token.keyword .CASE, space, Token.keyword .WHEN, space] :=
      calms_of_isCalm (by simp [isCalm])
    have htest : Calms profile [space, Token.symbol .eq, space, Token.int 0, space,
        Token.keyword .THEN, space, Token.keyword .NULL, space, Token.keyword .ELSE, space] :=
      calms_of_isCalm (by simp [isCalm])
    have hend : Calms profile [space, Token.keyword .END] := calms_of_isCalm (by simp [isCalm])
    have hcase := ((hwhen.follows_append hguarded).settles.joined htest hnumerator).joined
      hslash hguarded
    have hopens : (opens' || opens || opens' || false) = (opens || opens') := by
      cases opens <;> cases opens' <;> rfl
    rw [← hopens]
    exact hcase.append hend.follows
  next => exact hnumerator.joined hslash hnullIf

theorem settles_truncationTokens
    {profile : Profile} {opens : Bool} {inner : List Token} (grain : Grain)
    (h : Settles profile opens inner) :
    Settles profile opens (truncationTokens profile grain inner) := by
  have hplain := isPlain_truncation? profile.dialect
  obtain ⟨hstring, hword⟩ := @settles_datePart profile grain
  unfold truncationTokens
  simp only []
  split
  next hcall =>
    rw [hcall] at hplain
    simpa [TruncationCall.function] using (hstring.joined calms_separator h).callTokens hplain
  next hcall =>
    rw [hcall] at hplain
    simpa [TruncationCall.function] using (hword.joined calms_separator h).callTokens hplain
  next hcall =>
    rw [hcall] at hplain
    simpa [TruncationCall.function] using (h.joined calms_separator hword).callTokens hplain

theorem settles_percentileTokens
    {profile : Profile} {opens : Bool} {inner : List Token} {fraction : Float}
    (discrete approximate : Bool) (hfraction : Decimal.isFinite fraction = true)
    (h : Settles profile opens inner) :
    Settles profile opens
      (percentileTokens profile fraction discrete approximate inner) := by
  have hplain := isPlain_percentile? profile.dialect discrete approximate
  have hnumber : Settles profile false [Token.float fraction] := settles_float hfraction
  unfold percentileTokens
  split
  next hcall =>
    rw [hcall] at hplain
    have hwithin : Calms profile [space, Token.keyword .WITHIN_GROUP, space] :=
      calms_of_isCalm (by simp [isCalm])
    have horder : Calms profile [Token.keyword .ORDER_BY, space] :=
      calms_of_isCalm (by simp [isCalm])
    have hgroup := (horder.follows_append h).settles.parenthesized
    simpa [PercentileCall.function] using (hnumber.callTokens hplain).joined hwithin hgroup
  next hcall =>
    rw [hcall] at hplain
    simpa [PercentileCall.function] using (h.joined calms_separator hnumber).callTokens hplain

theorem settles_minus_operand
    {profile : Profile} {opens : Bool} {operand : Expr}
    (h : Settles profile opens (operand.tokens profile))
    (hlead : Leads profile (operand.isSigned profile) (operand.tokens profile)) :
    Settles profile ((neg operand).doublesMinus profile || opens)
      ((neg operand).tokens profile) := by
  rw [tokens, doublesMinus]
  by_cases hminus : operand.startsWithMinus = true
  · -- The test and a leading division exclude each other, so the parentheses are enough.
    have hquotient : operand.opensWithQuotient = false := by
      by_contra hquotient
      have hstarts := startsWithMinus_of_opensWithQuotient operand (by simpa using hquotient)
      rw [hminus] at hstarts
      cases hstarts
    have hlparen : (Token.symbol .lparen).isCalm = true := rfl
    rw [if_pos hminus, hquotient, Bool.and_false]
    exact h.parenthesized.minus (leads_of_isCalm hlparen _)
  · have hsigned : operand.isSigned profile =
        (profile.dividesInline && operand.opensWithQuotient) := by
      simp [hminus]
    rw [if_neg hminus, ← hsigned]
    exact h.minus hlead

/-! ### Lists inside an expression -/

section Lists

variable {profile : Profile}

theorem follows_moreArgTokens {args : List Expr}
    (h : ∀ arg ∈ args, Settles profile (arg.parts.any (doublesMinus profile)) (arg.tokens profile)) :
    Follows profile ((argParts args).any (doublesMinus profile)) (moreArgTokens profile args) := by
  induction args with
  | nil => exact follows_nil
  | cons arg rest ih =>
      obtain ⟨harg, hrest⟩ := List.forall_mem_cons.mp h
      rw [argParts, moreArgTokens, List.any_append]
      exact (calms_separator.follows_append harg).append (ih hrest)

theorem settles_argTokens {args : List Expr}
    (h : ∀ arg ∈ args, Settles profile (arg.parts.any (doublesMinus profile)) (arg.tokens profile)) :
    Settles profile ((argParts args).any (doublesMinus profile)) (argTokens profile args) := by
  cases args with
  | nil => exact settles_nil
  | cons arg rest =>
      obtain ⟨harg, hrest⟩ := List.forall_mem_cons.mp h
      rw [argParts, argTokens, List.any_append]
      exact harg.append (follows_moreArgTokens hrest)

theorem follows_branchTokens {branches : List (Expr × Expr)}
    (h : ∀ branch ∈ branches,
      Settles profile (branch.1.parts.any (doublesMinus profile)) (branch.1.tokens profile) ∧
        Settles profile (branch.2.parts.any (doublesMinus profile)) (branch.2.tokens profile)) :
    Follows profile ((branchParts branches).any (doublesMinus profile))
      (branchTokens profile branches) := by
  have hwhen : Calms profile [space, Token.keyword .WHEN, space] :=
    calms_of_isCalm (by simp [isCalm])
  have hthen : Calms profile [space, Token.keyword .THEN, space] :=
    calms_of_isCalm (by simp [isCalm])
  induction branches with
  | nil => exact follows_nil
  | cons branch rest ih =>
      obtain ⟨condition, result⟩ := branch
      obtain ⟨⟨hcondition, hresult⟩, hrest⟩ := List.forall_mem_cons.mp h
      rw [branchParts, branchTokens, List.any_append, List.any_append, List.append_assoc _ _
        (result.tokens profile)]
      exact ((hwhen.follows_append hcondition).append (hthen.follows_append hresult)).append
        (ih hrest)

theorem follows_otherwiseTokens {otherwise : Option Expr}
    (h : ∀ e ∈ otherwise,
      Settles profile (e.parts.any (doublesMinus profile)) (e.tokens profile)) :
    Follows profile ((otherwiseParts otherwise).any (doublesMinus profile))
      (otherwiseTokens profile otherwise) := by
  cases otherwise with
  | none => exact follows_nil
  | some e =>
      have helse : Calms profile [space, Token.keyword .ELSE, space] :=
        calms_of_isCalm (by simp [isCalm])
      exact helse.follows_append (h e rfl)

end Lists

/-- A comment is opened by the negations that double a minus sign and by nothing else. -/
theorem settles_tokens (profile : Profile) (e : Expr)
    (h : ∀ part ∈ e.parts, part.isOrdinary = true) :
    Settles profile (e.parts.any (doublesMinus profile)) (e.tokens profile) := by
  refine parts_induction (fun e hself hbelow ih => ?_) e h
  cases e with
  | column table name =>
      cases table with
      | none =>
          rw [tokens]
          simpa using settles_ident name
      | some table =>
          have hdot : Calms profile [Token.symbol .dot] := calms_of_isCalm (by simp [isCalm])
          rw [tokens]
          simpa using (settles_ident table).joined hdot (settles_ident name)
  | int value =>
      rw [tokens]
      simpa using settles_int value
  | float value =>
      have hnumber : Settles profile false [Token.float value] := settles_float hself
      rw [tokens]
      simpa using hnumber
  | binary op left right =>
      have hleft := ih left (by simp)
      have hright := ih right (by simp)
      rw [tokens]
      simpa using hleft.joined (calms_operator op) hright
  | neg operand =>
      have hlead := leads_tokens profile operand (hbelow operand (by simp))
      rw [parts, List.any_cons]
      exact settles_minus_operand (ih operand (by simp)) hlead
  | isNull operand =>
      have hoperand := ih operand (by simp)
      have hnull : Calms profile [space, Token.keyword .IS, space, Token.keyword .NULL] :=
        calms_of_isCalm (by simp [isCalm])
      rw [tokens]
      simpa using hoperand.append hnull.follows
  | call name args distinct =>
      have hargs : Settles profile ((argParts args).any (doublesMinus profile))
          (argTokens profile args) := settles_argTokens ih
      rw [tokens]
      have hinner : Settles profile ((argParts args).any (doublesMinus profile))
          ((if distinct then [Token.keyword .DISTINCT, space] else []) ++ argTokens profile args) := by
        cases distinct with
        | false => exact hargs
        | true =>
            have hdistinct : Calms profile [Token.keyword .DISTINCT, space] :=
              calms_of_isCalm (by simp [isCalm])
            exact (hdistinct.follows_append hargs).settles
      simpa using hinner.callTokens hself
  | case branches otherwise =>
      obtain ⟨hbranches, hotherwise⟩ := forall_children_case ih
      have hfront := follows_branchTokens hbranches
      have hback := follows_otherwiseTokens hotherwise
      have hcase : Calms profile [Token.keyword .CASE] := calms_of_isCalm (by simp [isCalm])
      have hend : Calms profile [space, Token.keyword .END] := calms_of_isCalm (by simp [isCalm])
      rw [tokens]
      simpa using
        hcase.follows.settles.append ((hfront.append hback).append hend.follows)
  | paren inner =>
      have hinner := ih inner (by simp)
      rw [tokens]
      simpa using hinner.parenthesized
  | castFloat inner =>
      have hinner := ih inner (by simp)
      have hcast : Calms profile [Token.keyword .CAST, Token.symbol .lparen] :=
        calms_of_isCalm (by simp [isCalm])
      rw [tokens]
      simpa [parenthesized] using hinner.enclosed hcast calms_floatType
  | safeDivide numerator denominator =>
      have hnumerator := ih numerator (by simp)
      have hdenominator := ih denominator (by simp)
      rw [tokens]
      simpa using
        settles_divisionTokens hnumerator.operandTokens hdenominator hdenominator.operandTokens
  | dateTrunc grain inner =>
      have hinner := ih inner (by simp)
      rw [tokens]
      simpa using settles_truncationTokens grain hinner
  | percentile inner fraction discrete approximate =>
      have hinner := ih inner (by simp)
      have hpercentile := settles_percentileTokens discrete approximate hself hinner
      rw [tokens]
      simpa using hpercentile
  | raw sql =>
      cases hself

theorem isPrintable_of_isOrdinary {e : Expr} (h : e.isOrdinary = true) : e.isPrintable = true := by
  cases e with
  | float value => exact h
  | percentile inner fraction discrete approximate => exact h
  | _ => rfl

theorem any_doublesMinus_iff {profile : Profile} {exprs : List Expr} :
    exprs.any (doublesMinus profile) = true ↔
      profile.dividesInline = true ∧
        ∃ operand, neg operand ∈ exprs ∧ operand.opensWithQuotient = true := by
  rw [List.any_eq_true]
  constructor
  · rintro ⟨part, hpart, hdoubles⟩
    cases part with
    | neg operand =>
        rw [doublesMinus, Bool.and_eq_true] at hdoubles
        exact ⟨hdoubles.1, operand, hpart, hdoubles.2⟩
    | _ => cases hdoubles
  · rintro ⟨hinline, operand, hpart, hquotient⟩
    exact ⟨neg operand, hpart, by rw [doublesMinus, hinline, hquotient, Bool.and_true]⟩

/-- Whatever its names are, an expression has a text.  Two minus signs stand together in it outside quoted names
exactly if a division written with a slash has a negative number in front and a negation right before it.  The text
starts with a minus sign exactly if the test says so or, again, such a division starts it. -/
theorem opensComment_text_iff
    (profile : Profile) (e : Expr) (h : ∀ part ∈ e.parts, part.isOrdinary = true) :
    ∃ text, textAll profile (e.tokens profile) = .ok text ∧
      (opensComment profile.dialect text.toList = true ↔
        profile.dividesInline = true ∧
          ∃ operand, neg operand ∈ e.parts ∧ operand.opensWithQuotient = true) ∧
      (text.toList.head? = some '-' ↔
        e.startsWithMinus = true ∨
          profile.dividesInline = true ∧ e.opensWithQuotient = true) := by
  have hprintable : Printable (e.tokens profile) :=
    printable_tokens profile e fun part hpart => isPrintable_of_isOrdinary (h part hpart)
  obtain ⟨text, htext⟩ := hprintable.exists_text
  refine ⟨text, htext, ?_, ?_⟩
  · rw [toList_eq_written htext, (settles_tokens profile e h).opensComment_eq]
    exact any_doublesMinus_iff
  · obtain ⟨c, cs, hwritten, hc⟩ := leads_tokens profile e h
    rw [toList_eq_written htext, hwritten, List.head?_cons, Option.some_inj, hc, isSigned,
      Bool.or_eq_true, Bool.and_eq_true]

end Expr

namespace Sample

/-- The name of the column holds a quotation mark and two minus signs. -/
def difference : Expr :=
  .binary .sub (.neg (.int (-1)))
    (.safeDivide (.neg (.column none "a--\"b")) (.neg (.neg (.float (-2.5)))))

theorem difference_opens_no_comment :
    (∀ part ∈ difference.parts, part.isOrdinary = true) ∧
      ∃ text, Token.textAll {} (difference.tokens {}) = .ok text ∧
        opensComment .duckdb text.toList = false ∧ text.toList.head? = some '-' := by
  have hparts : ∀ part ∈ difference.parts, part.isOrdinary = true := by decide +kernel
  obtain ⟨text, htext, hopens, hhead⟩ := Expr.opensComment_text_iff {} difference hparts
  refine ⟨hparts, text, htext, ?_, hhead.mpr (.inl rfl)⟩
  rw [← Bool.not_eq_true]
  intro hopened
  obtain ⟨-, operand, hoperand, hquotient⟩ := hopens.mp hopened
  simp only [difference, Expr.parts, List.mem_cons, List.mem_append, Expr.neg.injEq, reduceCtorEq,
    List.not_mem_nil, false_or, or_false] at hoperand
  rcases hoperand with rfl | rfl | rfl | rfl <;> cases hquotient

/-- The numerator is a number, so no parentheses are put around it. -/
def negatedQuotient : Expr := .neg (.safeDivide (.int (-5)) (.column none "x"))

theorem negatedQuotient_opens_comment :
    (∀ part ∈ negatedQuotient.parts, part.isOrdinary = true) ∧
      Token.textAll {} (negatedQuotient.tokens {}) = .ok "--5 / NULLIF(x, 0)" ∧
      opensComment .duckdb "--5 / NULLIF(x, 0)".toList = true ∧
      (Expr.safeDivide (.int (-5)) (.column none "x")).startsWithMinus = false := by
  decide +kernel

end Sample

end MetricSql
