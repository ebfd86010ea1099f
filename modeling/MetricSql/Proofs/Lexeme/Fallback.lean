import MetricSql.Plan.Render

/-!
# Spellings that stand in

Where a dialect has no spelling for truncation, a percentile or the native division, an expression is written with
a usual one instead, which the warehouse may refuse.  The printers are repeated here with a record of every time
that is done.  They write what the printers write, and what they record is what the parts of an expression lack.
-/

namespace MetricSql

open Token

/-- What a usual spelling stands in for. -/
inductive Fallback where
  | truncation
  | percentile
  | division
deriving DecidableEq

/-- Tokens, with the usual spellings that were taken to write them. -/
structure Traced where
  tokens : List Token
  fallbacks : List Fallback := []

namespace Traced

def append (front back : Traced) : Traced :=
  ⟨front.tokens ++ back.tokens, front.fallbacks ++ back.fallbacks⟩

instance : Append Traced := ⟨append⟩

/-- For functions that write their argument once. -/
def map (f : List Token → List Token) (traced : Traced) : Traced :=
  ⟨f traced.tokens, traced.fallbacks⟩

def record (fallback : Fallback) (traced : Traced) : Traced :=
  ⟨traced.tokens, fallback :: traced.fallbacks⟩

/-- Writes with the spelling of the dialect, or else with the usual one. -/
def spelt {α : Type} (spelling : Option α) (usual : α) (fallback : Fallback) (write : α → Traced) : Traced :=
  match spelling with
  | some spelling => write spelling
  | none => (write usual).record fallback

/-- Every entry on a line of its own. -/
def lines (depth : Nat) (separator : List Token) (entries : List Traced) : Traced :=
  ⟨linesOf depth separator (entries.map (·.tokens)), entries.flatMap (·.fallbacks)⟩

variable {front back traced : Traced}

@[simp]
theorem tokens_append : (front ++ back).tokens = front.tokens ++ back.tokens := rfl

@[simp]
theorem fallbacks_append : (front ++ back).fallbacks = front.fallbacks ++ back.fallbacks := rfl

@[simp]
theorem tokens_map {f : List Token → List Token} : (traced.map f).tokens = f traced.tokens := rfl

@[simp]
theorem fallbacks_map {f : List Token → List Token} :
    (traced.map f).fallbacks = traced.fallbacks := rfl

@[simp]
theorem tokens_record {fallback : Fallback} :
    (traced.record fallback).tokens = traced.tokens := rfl

@[simp]
theorem fallbacks_record {fallback : Fallback} :
    (traced.record fallback).fallbacks = fallback :: traced.fallbacks := rfl

@[simp]
theorem tokens_lines {depth : Nat} {separator : List Token} {entries : List Traced} :
    (lines depth separator entries).tokens = linesOf depth separator (entries.map (·.tokens)) := rfl

@[simp]
theorem fallbacks_lines {depth : Nat} {separator : List Token} {entries : List Traced} :
    (lines depth separator entries).fallbacks = entries.flatMap (·.fallbacks) := rfl

@[simp]
theorem tokens_spelt
    {α : Type} {spelling : Option α} {usual : α} {fallback : Fallback} {write : α → Traced} :
    (spelt spelling usual fallback write).tokens = (write (spelling.getD usual)).tokens := by
  cases spelling <;> rfl

@[simp]
theorem fallbacks_spelt
    {α : Type} {spelling : Option α} {usual : α} {fallback : Fallback} {write : α → Traced} :
    (spelt spelling usual fallback write).fallbacks =
      (if spelling.isNone then [fallback] else []) ++ (write (spelling.getD usual)).fallbacks := by
  cases spelling <;> rfl

end Traced

/-! ## Expressions -/

namespace Expr

def tracedDivision (profile : Profile) (numerator denominator guarded : Traced) : Traced :=
  let inline := numerator ++ ⟨[space, Token.symbol .slash, space], []⟩ ++
    (denominator ++ ⟨separator ++ [Token.int 0], []⟩).map (callTokens "NULLIF")
  match profile.divisionStyle, profile.dialect.safeDivision? with
  | .native, some name => (numerator ++ ⟨separator, []⟩ ++ denominator).map (callTokens name)
  | .native, none => inline.record .division
  | .caseGuard, _ =>
    ⟨[Token.keyword .CASE, space, Token.keyword .WHEN, space], []⟩ ++ guarded ++
      ⟨[space, Token.symbol .eq, space, Token.int 0, space, Token.keyword .THEN, space, Token.keyword .NULL, space,
        Token.keyword .ELSE, space], []⟩ ++
      numerator ++ ⟨[space, Token.symbol .slash, space], []⟩ ++ guarded ++ ⟨[space, Token.keyword .END], []⟩
  | .nullIf, _ => inline

def tracedTruncation (profile : Profile) (grain : Grain) (inner : Traced) : Traced :=
  let part := profile.dialect.datePart grain
  .spelt profile.dialect.truncation? usualTruncation .truncation fun
    | .quotedPartFirst name => (⟨string part :: separator, []⟩ ++ inner).map (callTokens name)
    | .keywordPartFirst name =>
      (⟨verbatim (Text.upper part) :: separator, []⟩ ++ inner).map (callTokens name)
    | .keywordPartLast name =>
      (inner ++ ⟨separator ++ [verbatim (Text.upper part)], []⟩).map (callTokens name)

def tracedPercentile (profile : Profile) (fraction : Float) (discrete approximate : Bool)
    (inner : Traced) : Traced :=
  .spelt (profile.dialect.percentile? discrete approximate) (usualPercentile discrete) .percentile fun
    | .withinGroup name =>
      ⟨callTokens name [Token.float fraction] ++ [space, Token.keyword .WITHIN_GROUP, space], []⟩ ++
        (⟨[Token.keyword .ORDER_BY, space], []⟩ ++ inner).map parenthesized
    | .plain name => (inner ++ ⟨separator ++ [Token.float fraction], []⟩).map (callTokens name)

mutual

/-- The tokens of an expression with the usual spellings taken. -/
def traced (profile : Profile) : Expr → Traced
  | column none name => ⟨[ident name], []⟩
  | column (some table) name => ⟨[ident table, Token.symbol .dot, ident name], []⟩
  | int value => ⟨[Token.int value], []⟩
  | float value => ⟨[Token.float value], []⟩
  | binary op left right =>
    left.traced profile ++ ⟨[space, op.token, space], []⟩ ++ right.traced profile
  | neg operand =>
    ⟨[Token.symbol .minus], []⟩ ++
      if operand.startsWithMinus then (operand.traced profile).map parenthesized
      else operand.traced profile
  | isNull operand =>
    operand.traced profile ++ ⟨[space, Token.keyword .IS, space, Token.keyword .NULL], []⟩
  | call name args distinct =>
    (⟨if distinct then [Token.keyword .DISTINCT, space] else [], []⟩ ++
      tracedArgs profile args).map (callTokens name)
  | case branches otherwise =>
    ⟨[Token.keyword .CASE], []⟩ ++
      (tracedBranches profile branches ++ tracedOtherwise profile otherwise ++
        ⟨[space, Token.keyword .END], []⟩)
  | paren inner => (inner.traced profile).map parenthesized
  | castFloat inner =>
    ⟨[Token.keyword .CAST], []⟩ ++
      (inner.traced profile ++
        ⟨[space, Token.keyword .AS, space, verbatim profile.dialect.floatType], []⟩).map parenthesized
  | safeDivide numerator denominator =>
    tracedDivision profile ((numerator.traced profile).map (operandTokens numerator))
      (denominator.traced profile) ((denominator.traced profile).map (operandTokens denominator))
  | dateTrunc grain inner => tracedTruncation profile grain (inner.traced profile)
  | percentile inner fraction discrete approximate =>
    tracedPercentile profile fraction discrete approximate (inner.traced profile)
  | raw sql => ⟨[Token.raw sql], []⟩

def tracedArgs (profile : Profile) : List Expr → Traced
  | [] => ⟨[], []⟩
  | arg :: rest => arg.traced profile ++ tracedMoreArgs profile rest

def tracedMoreArgs (profile : Profile) : List Expr → Traced
  | [] => ⟨[], []⟩
  | arg :: rest => ⟨separator, []⟩ ++ arg.traced profile ++ tracedMoreArgs profile rest

def tracedBranches (profile : Profile) : List (Expr × Expr) → Traced
  | [] => ⟨[], []⟩
  | (condition, result) :: rest =>
    ⟨[space, Token.keyword .WHEN, space], []⟩ ++ condition.traced profile ++
      ⟨[space, Token.keyword .THEN, space], []⟩ ++ result.traced profile ++ tracedBranches profile rest

def tracedOtherwise (profile : Profile) : Option Expr → Traced
  | none => ⟨[], []⟩
  | some e => ⟨[space, Token.keyword .ELSE, space], []⟩ ++ e.traced profile

end

theorem tokens_tracedDivision {profile : Profile} {numerator denominator guarded : Traced} :
    (tracedDivision profile numerator denominator guarded).tokens =
      divisionTokens profile numerator.tokens denominator.tokens guarded.tokens := by
  unfold tracedDivision divisionTokens
  cases profile.divisionStyle with
  | nullIf => simp
  | caseGuard => simp
  | native => cases profile.dialect.safeDivision? <;> simp

theorem tokens_tracedTruncation {profile : Profile} {grain : Grain} {inner : Traced} :
    (tracedTruncation profile grain inner).tokens =
      truncationTokens profile grain inner.tokens := by
  unfold tracedTruncation truncationTokens
  rw [Traced.tokens_spelt]
  cases profile.dialect.truncation?.getD usualTruncation <;> simp

theorem tokens_tracedPercentile
    {profile : Profile} {fraction : Float} {discrete approximate : Bool} {inner : Traced} :
    (tracedPercentile profile fraction discrete approximate inner).tokens =
      percentileTokens profile fraction discrete approximate inner.tokens := by
  unfold tracedPercentile percentileTokens
  rw [Traced.tokens_spelt]
  cases (profile.dialect.percentile? discrete approximate).getD (usualPercentile discrete) <;> simp

mutual

theorem tokens_traced (profile : Profile) :
    ∀ e : Expr, (e.traced profile).tokens = e.tokens profile
  | column none name => by simp [traced, tokens]
  | column (some table) name => by simp [traced, tokens]
  | int value => by simp [traced, tokens]
  | float value => by simp [traced, tokens]
  | binary op left right => by
      simp [traced, tokens, tokens_traced profile left, tokens_traced profile right]
  | neg operand => by
      by_cases hminus : operand.startsWithMinus = true
      · simp [traced, tokens, hminus, tokens_traced profile operand]
      · simp [traced, tokens, hminus, tokens_traced profile operand]
  | isNull operand => by simp [traced, tokens, tokens_traced profile operand]
  | call name args distinct => by simp [traced, tokens, tokens_tracedArgs profile args]
  | case branches otherwise => by
      simp [traced, tokens, tokens_tracedBranches profile branches,
        tokens_tracedOtherwise profile otherwise]
  | paren inner => by simp [traced, tokens, tokens_traced profile inner]
  | castFloat inner => by simp [traced, tokens, tokens_traced profile inner]
  | safeDivide numerator denominator => by
      simp [traced, tokens, tokens_tracedDivision, tokens_traced profile numerator,
        tokens_traced profile denominator]
  | dateTrunc grain inner => by
      simp [traced, tokens, tokens_tracedTruncation, tokens_traced profile inner]
  | percentile inner fraction discrete approximate => by
      simp [traced, tokens, tokens_tracedPercentile, tokens_traced profile inner]
  | raw sql => by simp [traced, tokens]

theorem tokens_tracedArgs (profile : Profile) :
    ∀ args : List Expr, (tracedArgs profile args).tokens = argTokens profile args
  | [] => rfl
  | arg :: rest => by
      simp [tracedArgs, argTokens, tokens_traced profile arg, tokens_tracedMoreArgs profile rest]

theorem tokens_tracedMoreArgs (profile : Profile) :
    ∀ args : List Expr, (tracedMoreArgs profile args).tokens = moreArgTokens profile args
  | [] => rfl
  | arg :: rest => by
      simp [tracedMoreArgs, moreArgTokens, tokens_traced profile arg,
        tokens_tracedMoreArgs profile rest]

theorem tokens_tracedBranches (profile : Profile) :
    ∀ branches : List (Expr × Expr),
      (tracedBranches profile branches).tokens = branchTokens profile branches
  | [] => rfl
  | (condition, result) :: rest => by
      simp [tracedBranches, branchTokens, tokens_traced profile condition,
        tokens_traced profile result, tokens_tracedBranches profile rest]

theorem tokens_tracedOtherwise (profile : Profile) :
    ∀ otherwise : Option Expr,
      (tracedOtherwise profile otherwise).tokens = otherwiseTokens profile otherwise
  | none => rfl
  | some e => by simp [tracedOtherwise, otherwiseTokens, tokens_traced profile e]

end

/-! ### What is recorded -/

/-- What the outermost construct of an expression has no spelling for. -/
def lacks (profile : Profile) : Expr → Option Fallback
  | dateTrunc _ _ => if profile.dialect.truncation?.isNone then some .truncation else none
  | percentile _ _ discrete approximate =>
    if (profile.dialect.percentile? discrete approximate).isNone then some .percentile else none
  | safeDivide _ _ =>
    if profile.divisionStyle = .native ∧ profile.dialect.safeDivision? = none then some .division
    else none
  | _ => none

variable {profile : Profile} {fallback : Fallback}

theorem mem_fallbacks_tracedDivision {numerator denominator guarded : Traced}
    (hguarded : guarded.fallbacks = denominator.fallbacks) :
    fallback ∈ (tracedDivision profile numerator denominator guarded).fallbacks ↔
      (profile.divisionStyle = .native ∧ profile.dialect.safeDivision? = none) ∧
          fallback = .division ∨
        fallback ∈ numerator.fallbacks ∨ fallback ∈ denominator.fallbacks := by
  unfold tracedDivision
  cases profile.divisionStyle with
  | nullIf => simp
  | caseGuard =>
      -- The denominator is written twice.
      have htwice : fallback ∈ denominator.fallbacks →
          fallback ∈ numerator.fallbacks ∨ fallback ∈ denominator.fallbacks := .inr
      simpa [hguarded] using htwice
  | native => cases profile.dialect.safeDivision? <;> simp

theorem fallbacks_tracedTruncation {grain : Grain} {inner : Traced} :
    (tracedTruncation profile grain inner).fallbacks =
      (if profile.dialect.truncation?.isNone then [.truncation] else []) ++ inner.fallbacks := by
  unfold tracedTruncation
  rw [Traced.fallbacks_spelt]
  cases profile.dialect.truncation?.getD usualTruncation <;> simp

theorem fallbacks_tracedPercentile
    {fraction : Float} {discrete approximate : Bool} {inner : Traced} :
    (tracedPercentile profile fraction discrete approximate inner).fallbacks =
      (if (profile.dialect.percentile? discrete approximate).isNone then [.percentile] else []) ++
        inner.fallbacks := by
  unfold tracedPercentile
  rw [Traced.fallbacks_spelt]
  cases (profile.dialect.percentile? discrete approximate).getD (usualPercentile discrete) <;> simp

mutual

/-- Every part is written, so what it lacks is recorded, and nothing else is. -/
theorem mem_fallbacks_traced : ∀ e : Expr,
    fallback ∈ (e.traced profile).fallbacks ↔ fallback ∈ e.parts.filterMap (lacks profile)
  | column none name => by simp [traced, parts, lacks]
  | column (some table) name => by simp [traced, parts, lacks]
  | int value => by simp [traced, parts, lacks]
  | float value => by simp [traced, parts, lacks]
  | binary op left right => by
      simp only [traced, parts, Traced.fallbacks_append, List.filterMap_cons, lacks,
        List.filterMap_append, List.mem_append, mem_fallbacks_traced left,
        mem_fallbacks_traced right]
      simp
  | neg operand => by
      have hoperand := mem_fallbacks_traced operand
      by_cases hminus : operand.startsWithMinus = true
      · simpa [traced, parts, lacks, hminus] using hoperand
      · simpa [traced, parts, lacks, hminus] using hoperand
  | isNull operand => by simpa [traced, parts, lacks] using mem_fallbacks_traced operand
  | call name args distinct => by
      simpa [traced, parts, lacks] using mem_fallbacks_tracedArgs args
  | case branches otherwise => by
      have hbranches := mem_fallbacks_tracedBranches branches
      have hotherwise := mem_fallbacks_tracedOtherwise otherwise
      simp only [traced, parts, Traced.fallbacks_append, List.filterMap_cons, lacks,
        List.filterMap_append, List.mem_append, hbranches, hotherwise]
      simp
  | paren inner => by simpa [traced, parts, lacks] using mem_fallbacks_traced inner
  | castFloat inner => by simpa [traced, parts, lacks] using mem_fallbacks_traced inner
  | safeDivide numerator denominator => by
      have hnumerator := mem_fallbacks_traced numerator
      have hdenominator := mem_fallbacks_traced denominator
      have hguarded : ((denominator.traced profile).map (operandTokens denominator)).fallbacks =
          (denominator.traced profile).fallbacks := rfl
      rw [traced, mem_fallbacks_tracedDivision hguarded, Traced.fallbacks_map, hnumerator,
        hdenominator, parts, List.filterMap_cons, List.filterMap_append, lacks]
      by_cases hnative : profile.divisionStyle = .native ∧ profile.dialect.safeDivision? = none
      · simp [hnative]
      · simp [hnative]
  | dateTrunc grain inner => by
      have hinner := mem_fallbacks_traced inner
      rw [traced, fallbacks_tracedTruncation, List.mem_append, hinner, parts,
        List.filterMap_cons, lacks]
      cases profile.dialect.truncation? <;> simp
  | percentile inner fraction discrete approximate => by
      have hinner := mem_fallbacks_traced inner
      rw [traced, fallbacks_tracedPercentile, List.mem_append, hinner, parts,
        List.filterMap_cons, lacks]
      cases profile.dialect.percentile? discrete approximate <;> simp
  | raw sql => by simp [traced, parts, lacks]

theorem mem_fallbacks_tracedArgs : ∀ args : List Expr,
    fallback ∈ (tracedArgs profile args).fallbacks ↔
      fallback ∈ (argParts args).filterMap (lacks profile)
  | [] => by simp [tracedArgs, argParts]
  | arg :: rest => by
      rw [tracedArgs, Traced.fallbacks_append, List.mem_append, mem_fallbacks_traced arg,
        mem_fallbacks_tracedMoreArgs rest, argParts, List.filterMap_append, List.mem_append]

theorem mem_fallbacks_tracedMoreArgs : ∀ args : List Expr,
    fallback ∈ (tracedMoreArgs profile args).fallbacks ↔
      fallback ∈ (argParts args).filterMap (lacks profile)
  | [] => by simp [tracedMoreArgs, argParts]
  | arg :: rest => by
      simp only [tracedMoreArgs, argParts, Traced.fallbacks_append, List.filterMap_append,
        List.nil_append, List.mem_append, mem_fallbacks_traced arg,
        mem_fallbacks_tracedMoreArgs rest]

theorem mem_fallbacks_tracedBranches : ∀ branches : List (Expr × Expr),
    fallback ∈ (tracedBranches profile branches).fallbacks ↔
      fallback ∈ (branchParts branches).filterMap (lacks profile)
  | [] => by simp [tracedBranches, branchParts]
  | (condition, result) :: rest => by
      simp only [tracedBranches, branchParts, Traced.fallbacks_append, List.filterMap_append,
        List.nil_append, List.append_nil, List.mem_append, mem_fallbacks_traced condition,
        mem_fallbacks_traced result, mem_fallbacks_tracedBranches rest]

theorem mem_fallbacks_tracedOtherwise : ∀ otherwise : Option Expr,
    fallback ∈ (tracedOtherwise profile otherwise).fallbacks ↔
      fallback ∈ (otherwiseParts otherwise).filterMap (lacks profile)
  | none => by simp [tracedOtherwise, otherwiseParts]
  | some e => by simpa [tracedOtherwise, otherwiseParts] using mem_fallbacks_traced e

end

end Expr

/-! ## Queries -/

def SelectItem.traced (profile : Profile) (item : SelectItem) : Traced :=
  item.expr.traced profile ++
    match item.aliasName with
    | some aliasName => ⟨[space, Token.keyword .AS, space, ident aliasName], []⟩
    | none => ⟨[], []⟩

def tracedSelect (profile : Profile) (depth : Nat) (items : List SelectItem) : Traced :=
  ⟨[indent depth, Token.keyword .SELECT], []⟩ ++
    .lines (depth + 1) Expr.separator (items.map (·.traced profile))

def tracedGroup (profile : Profile) (depth : Nat) (keys : List Expr) : Traced :=
  if keys.isEmpty then ⟨[], []⟩
  else
    ⟨lineAt depth ++ [Token.keyword .GROUP_BY], []⟩ ++
      .lines (depth + 1) Expr.separator (keys.map (·.traced profile))

def tracedOn (profile : Profile) (depth : Nat) (conditions : List Expr) : Traced :=
  if conditions.isEmpty then ⟨[], []⟩
  else
    ⟨lineAt depth ++ [Token.keyword .ON], []⟩ ++
      .lines (depth + 1) [Token.keyword .AND, space] (conditions.map (·.traced profile))

mutual

/-- The tokens of a nested query with the usual spellings taken. -/
def Query.tracedAt (profile : Profile) (depth : Nat) : Query → Traced
  | ⟨comments, select, source, joins, groupBy⟩ =>
    ⟨commentLines profile depth comments, []⟩ ++ tracedSelect profile depth select ++
      tracedSource profile depth source ++ tracedJoins profile depth joins ++
      tracedGroup profile depth groupBy

def tracedSource (profile : Profile) (depth : Nat) : Option Relation → Traced
  | none => ⟨[], []⟩
  | some relation =>
    ⟨lineAt depth ++ [Token.keyword .FROM, space], []⟩ ++ relation.tracedAt profile depth

def Relation.tracedAt (profile : Profile) (depth : Nat) : Relation → Traced
  | .table ref => ⟨ref.tokens, []⟩
  | .subquery query aliasName =>
    ⟨[Token.symbol .lparen, newline], []⟩ ++ query.tracedAt profile (depth + 1) ++
      ⟨lineAt depth ++ [Token.symbol .rparen, space, ident aliasName], []⟩

def tracedJoins (profile : Profile) (depth : Nat) : List Join → Traced
  | [] => ⟨[], []⟩
  | join :: rest =>
    ⟨lineAt depth, []⟩ ++ join.tracedAt profile depth ++ tracedJoins profile depth rest

def Join.tracedAt (profile : Profile) (depth : Nat) : Join → Traced
  | ⟨kind, relation, on⟩ =>
    ⟨kind.tokens, []⟩ ++ relation.tracedAt profile depth ++ tracedOn profile depth on

end

def Query.traced (profile : Profile) (query : Query) : Traced := query.tracedAt profile 0

theorem SelectItem.tokens_traced (profile : Profile) (item : SelectItem) :
    (item.traced profile).tokens = item.tokens profile := by
  unfold SelectItem.traced SelectItem.tokens
  cases item.aliasName <;> simp [Expr.tokens_traced]

theorem tokens_tracedSelect (profile : Profile) (depth : Nat) (items : List SelectItem) :
    (tracedSelect profile depth items).tokens = selectLines profile depth items := by
  simp [tracedSelect, selectLines, SelectItem.tokens_traced, Function.comp_def]

theorem tokens_tracedGroup (profile : Profile) (depth : Nat) (keys : List Expr) :
    (tracedGroup profile depth keys).tokens = groupLines profile depth keys := by
  unfold tracedGroup groupLines
  split
  next => rfl
  next => simp [Expr.tokens_traced, Function.comp_def]

theorem tokens_tracedOn (profile : Profile) (depth : Nat) (conditions : List Expr) :
    (tracedOn profile depth conditions).tokens = onLines profile depth conditions := by
  unfold tracedOn onLines
  split
  next => rfl
  next => simp [Expr.tokens_traced, Function.comp_def]

mutual

theorem Query.tokens_tracedAt (profile : Profile) (depth : Nat) :
    ∀ query : Query, (query.tracedAt profile depth).tokens = query.tokensAt profile depth
  | ⟨comments, select, source, joins, groupBy⟩ => by
      simp [Query.tracedAt, Query.tokensAt, tokens_tracedSelect, tokens_tracedGroup,
        tokens_tracedSource profile depth source, tokens_tracedJoins profile depth joins]

theorem tokens_tracedSource (profile : Profile) (depth : Nat) :
    ∀ source : Option Relation,
      (tracedSource profile depth source).tokens = sourceLines profile depth source
  | none => rfl
  | some relation => by
      simp [tracedSource, sourceLines, Relation.tokens_tracedAt profile depth relation]

theorem Relation.tokens_tracedAt (profile : Profile) (depth : Nat) :
    ∀ relation : Relation, (relation.tracedAt profile depth).tokens = relation.tokensAt profile depth
  | .table ref => by simp [Relation.tracedAt, Relation.tokensAt]
  | .subquery query aliasName => by
      simp [Relation.tracedAt, Relation.tokensAt, Query.tokens_tracedAt profile (depth + 1) query]

theorem tokens_tracedJoins (profile : Profile) (depth : Nat) :
    ∀ joins : List Join, (tracedJoins profile depth joins).tokens = joinLines profile depth joins
  | [] => rfl
  | join :: rest => by
      simp [tracedJoins, joinLines, Join.tokens_tracedAt profile depth join,
        tokens_tracedJoins profile depth rest]

theorem Join.tokens_tracedAt (profile : Profile) (depth : Nat) :
    ∀ join : Join, (join.tracedAt profile depth).tokens = join.tokensAt profile depth
  | ⟨kind, relation, on⟩ => by
      simp [Join.tracedAt, Join.tokensAt, tokens_tracedOn,
        Relation.tokens_tracedAt profile depth relation]

end

end MetricSql
