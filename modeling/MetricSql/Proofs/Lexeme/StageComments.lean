import MetricSql.Proofs.Plan.Support

/-!
# Stage comments

When the profile asks for stage comments, the query of every stage starts with a
line that says what the stage does.  These lines are all that the setting adds:
`Annotates plain texts written` says that `written` is `plain` with a line of its
own put in for each of the `texts`, and holds of what is written for a plan
without and with comments.
-/

namespace MetricSql

namespace Token

/-- Whether the token stands inside a line of code. -/
def isInline : Token → Bool
  | newline | indent _ | comment _ => false
  | _ => true

def comment? : Token → Option String
  | comment text => some text
  | _ => none

/-- The texts of the comments, in order. -/
def comments (tokens : List Token) : List String := tokens.filterMap comment?

/-- The tokens without the lines that hold nothing but a comment. -/
def dropCommentLines : List Token → List Token
  | indent _ :: comment _ :: newline :: rest => dropCommentLines rest
  | token :: rest => token :: dropCommentLines rest
  | [] => []

theorem comment?_of_isInline {token : Token} (h : token.isInline = true) :
    token.comment? = none := by
  cases token with
  | comment text => cases h
  | _ => rfl

end Token

open Token

/-! ## Lines put in for comments -/

inductive Annotates : List Token → List String → List Token → Prop
  | nil : Annotates [] [] []
  | token {token : Token} {plain written : List Token} {texts : List String}
      (h : token.comment? = none) (hrest : Annotates plain texts written) :
      Annotates (token :: plain) texts (token :: written)
  | line (depth : Nat) (text : String) {plain written : List Token} {texts : List String}
      (hrest : Annotates plain texts written) :
      Annotates plain (text :: texts) (indent depth :: comment text :: newline :: written)

namespace Annotates

variable {plain plain' written written' : List Token} {texts texts' : List String}

theorem append (h : Annotates plain texts written) (h' : Annotates plain' texts' written') :
    Annotates (plain ++ plain') (texts ++ texts') (written ++ written') := by
  induction h with
  | nil => exact h'
  | token hnot _ ih => exact .token hnot ih
  | line depth text _ ih => exact .line depth text ih

/-- Tokens among which there is no comment stay as they are. -/
theorem refl {tokens : List Token} (h : ∀ token ∈ tokens, token.comment? = none) :
    Annotates tokens [] tokens := by
  induction tokens with
  | nil => exact .nil
  | cons token rest ih =>
      have hrest := ih fun other hother => h other (List.mem_cons_of_mem _ hother)
      exact .token (h token List.mem_cons_self) hrest

theorem prepend (h : Annotates plain texts written) {tokens : List Token}
    (htokens : ∀ token ∈ tokens, token.comment? = none) :
    Annotates (tokens ++ plain) texts (tokens ++ written) :=
  (refl htokens).append h

theorem comments_eq (h : Annotates plain texts written) : comments written = texts := by
  induction h with
  | nil => rfl
  | token hnot _ ih => rwa [comments, List.filterMap_cons_none hnot]
  | line depth text _ ih =>
      rw [← ih]
      rfl

theorem between (h : Annotates plain texts written) {before after : List Token} {text : String}
    (hsplit : written = before ++ comment text :: after) :
    ∃ front depth rest, before = front ++ [indent depth] ∧ after = newline :: rest := by
  induction h generalizing before with
  | nil => simp at hsplit
  | @token token _ _ _ hnot _ ih =>
      cases before with
      | nil =>
          simp only [List.nil_append, List.cons.injEq] at hsplit
          rw [hsplit.1] at hnot
          cases hnot
      | cons first before =>
          simp only [List.cons_append, List.cons.injEq] at hsplit
          rcases ih hsplit.2 with ⟨front, depth, rest, rfl, hafter⟩
          exact ⟨first :: front, depth, rest, rfl, hafter⟩
  | @line depth _ _ written _ _ ih =>
      -- the comment is the second token of the line, or it comes after the line
      rcases before with _ | ⟨first, _ | ⟨second, _ | ⟨third, before⟩⟩⟩
      · simp at hsplit
      · simp only [List.cons_append, List.nil_append, List.cons.injEq] at hsplit
        exact ⟨[], depth, written, by rw [← hsplit.1, List.nil_append], hsplit.2.2.symm⟩
      · simp at hsplit
      · simp only [List.cons_append, List.cons.injEq] at hsplit
        rcases ih hsplit.2.2.2 with ⟨front, inner, rest, rfl, hafter⟩
        exact ⟨first :: second :: third :: front, inner, rest, rfl, hafter⟩

theorem ne_comment_cons (h : Annotates plain texts written) (text : String) (rest : List Token) :
    written ≠ comment text :: rest := by
  rintro rfl
  cases h with
  | token hnot _ => cases hnot

theorem dropCommentLines_eq (h : Annotates plain texts written) :
    dropCommentLines written = plain := by
  induction h with
  | nil => rfl
  | token _ hrest ih =>
      rw [dropCommentLines, ih]
      rintro depth text rest rfl rfl
      exact hrest.ne_comment_cons _ _ rfl
  | line depth text _ ih => rwa [dropCommentLines]

end Annotates

/-! ## Expressions -/

namespace Expr

/-- An expression is written on one line, without comments. -/
theorem all_isInline_tokens (profile : Profile) (e : Expr) :
    (e.tokens profile).all isInline = true := by
  have hall : (e.tokens profile).all (isInlineWith fun _ => true) = true :=
    all_tokens fun _ _ _ _ => rfl
  rw [List.all_eq_true] at hall ⊢
  intro token htoken
  have hinline := hall token htoken
  cases token with
  | newline | indent | comment => cases hinline
  | _ => rfl

attribute [local simp] tokens

mutual

theorem tokens_stageComments (profile : Profile) (on : Bool) : ∀ e : Expr,
    e.tokens { profile with stageComments := on } = e.tokens profile
  | column none name => by simp
  | column (some table) name => by simp
  | int value => by simp
  | float value => by simp
  | binary op left right => by
      simp [tokens_stageComments profile on left, tokens_stageComments profile on right]
  | neg operand => by simp [tokens_stageComments profile on operand]
  | isNull operand => by simp [tokens_stageComments profile on operand]
  | call name args distinct => by simp [argTokens_stageComments profile on args]
  | case branches otherwise => by
      simp [branchTokens_stageComments profile on branches,
        otherwiseTokens_stageComments profile on otherwise]
  | paren inner => by simp [tokens_stageComments profile on inner]
  | castFloat inner => by simp [tokens_stageComments profile on inner]
  | safeDivide numerator denominator => by
      simp only [tokens, tokens_stageComments profile on numerator,
        tokens_stageComments profile on denominator]
      rfl
  | dateTrunc grain inner => by
      simp only [tokens, tokens_stageComments profile on inner]
      rfl
  | percentile inner fraction discrete approximate => by
      simp only [tokens, tokens_stageComments profile on inner]
      rfl
  | raw sql => by simp

theorem argTokens_stageComments (profile : Profile) (on : Bool) : ∀ args : List Expr,
    argTokens { profile with stageComments := on } args = argTokens profile args
  | [] => rfl
  | arg :: rest => by
      simp [argTokens, tokens_stageComments profile on arg,
        moreArgTokens_stageComments profile on rest]

theorem moreArgTokens_stageComments (profile : Profile) (on : Bool) : ∀ args : List Expr,
    moreArgTokens { profile with stageComments := on } args = moreArgTokens profile args
  | [] => rfl
  | arg :: rest => by
      simp [moreArgTokens, tokens_stageComments profile on arg,
        moreArgTokens_stageComments profile on rest]

theorem branchTokens_stageComments (profile : Profile) (on : Bool) :
    ∀ branches : List (Expr × Expr),
      branchTokens { profile with stageComments := on } branches = branchTokens profile branches
  | [] => rfl
  | (condition, result) :: rest => by
      simp [branchTokens, tokens_stageComments profile on condition,
        tokens_stageComments profile on result, branchTokens_stageComments profile on rest]

theorem otherwiseTokens_stageComments (profile : Profile) (on : Bool) :
    ∀ otherwise : Option Expr,
      otherwiseTokens { profile with stageComments := on } otherwise =
        otherwiseTokens profile otherwise
  | none => rfl
  | some e => by simp [otherwiseTokens, tokens_stageComments profile on e]

end

theorem comment?_eq_none_of_mem_tokens {profile : Profile} {e : Expr} {token : Token}
    (h : token ∈ e.tokens profile) : token.comment? = none :=
  comment?_of_isInline (List.all_eq_true.mp (all_isInline_tokens profile e) token h)

end Expr

/-! ## Clauses -/

section Clauses

attribute [local simp] lineAt Expr.separator comment?

variable {profile : Profile} {depth : Nat}

theorem comment?_eq_none_of_mem_linesOf {separator : List Token} {entries : List (List Token)}
    (hseparator : ∀ token ∈ separator, token.comment? = none)
    (hentries : ∀ entry ∈ entries, ∀ token ∈ entry, token.comment? = none) :
    ∀ token ∈ linesOf depth separator entries, token.comment? = none := by
  have hline : ∀ token ∈ lineAt depth, token.comment? = none := by simp
  cases entries with
  | nil => simp [linesOf]
  | cons first rest =>
      intro token htoken
      simp only [linesOf, List.mem_append, List.mem_flatMap] at htoken
      rcases htoken with (htoken | htoken) | ⟨entry, hentry, (htoken | htoken) | htoken⟩
      · exact hline token htoken
      · exact hentries first List.mem_cons_self token htoken
      · exact hline token htoken
      · exact hseparator token htoken
      · exact hentries entry (List.mem_cons_of_mem _ hentry) token htoken

theorem comment?_eq_none_of_mem_exprLines {separator : List Token}
    (hseparator : ∀ token ∈ separator, token.comment? = none) (profile : Profile) (depth : Nat)
    (exprs : List Expr) :
    ∀ token ∈ linesOf depth separator (exprs.map (·.tokens profile)), token.comment? = none := by
  apply comment?_eq_none_of_mem_linesOf hseparator
  intro entry hentry token htoken
  rcases List.mem_map.mp hentry with ⟨e, -, rfl⟩
  exact Expr.comment?_eq_none_of_mem_tokens htoken

theorem SelectItem.all_isInline_tokens (profile : Profile) (item : SelectItem) :
    (item.tokens profile).all isInline = true := by
  have hexpr := Expr.all_isInline_tokens profile item.expr
  rw [SelectItem.tokens, List.all_append, hexpr, Bool.true_and]
  cases item.aliasName <;> rfl

theorem SelectItem.comment?_eq_none_of_mem_tokens {item : SelectItem} {token : Token}
    (h : token ∈ item.tokens profile) : token.comment? = none :=
  comment?_of_isInline (List.all_eq_true.mp (item.all_isInline_tokens profile) token h)

/-- A clause in which no comment stands, written under both settings. -/
structure Steady (clause : Profile → List Token) (profile : Profile) : Prop where
  same : ∀ on, clause { profile with stageComments := on } = clause profile
  bare : ∀ token ∈ clause profile, token.comment? = none

theorem Steady.annotates {clause : Profile → List Token} (h : Steady clause profile) :
    Annotates (clause { profile with stageComments := false }) []
      (clause { profile with stageComments := true }) := by
  rw [h.same false, h.same true]
  exact .refl h.bare

theorem steady_selectLines (profile : Profile) (depth : Nat) (items : List SelectItem) :
    Steady (selectLines · depth items) profile := by
  constructor
  · intro on
    simp only [selectLines, SelectItem.tokens, Expr.tokens_stageComments]
  · have hlines : ∀ token ∈ linesOf (depth + 1) Expr.separator (items.map (·.tokens profile)),
        token.comment? = none := by
      apply comment?_eq_none_of_mem_linesOf (by simp)
      intro entry hentry token htoken
      rcases List.mem_map.mp hentry with ⟨item, -, rfl⟩
      exact SelectItem.comment?_eq_none_of_mem_tokens htoken
    simpa [selectLines, or_imp, forall_and] using hlines

theorem steady_groupLines (profile : Profile) (depth : Nat) (keys : List Expr) :
    Steady (groupLines · depth keys) profile := by
  constructor
  · intro on
    simp only [groupLines, Expr.tokens_stageComments]
  · unfold groupLines
    split
    · simp
    · have hseparator : ∀ token ∈ Expr.separator, token.comment? = none := by
        simp
      have hlines := comment?_eq_none_of_mem_exprLines hseparator profile (depth + 1) keys
      simpa [or_imp, forall_and] using hlines

theorem steady_onLines (profile : Profile) (depth : Nat) (conditions : List Expr) :
    Steady (onLines · depth conditions) profile := by
  constructor
  · intro on
    simp only [onLines, Expr.tokens_stageComments]
  · unfold onLines
    split
    · simp
    · have hseparator : ∀ token ∈ [keyword .AND, space], token.comment? = none := by
        simp
      have hlines := comment?_eq_none_of_mem_exprLines hseparator profile (depth + 1) conditions
      simpa [or_imp, forall_and] using hlines

theorem annotates_commentLines (profile : Profile) (depth : Nat) (texts : List String) :
    Annotates (commentLines { profile with stageComments := false } depth texts) texts
      (commentLines { profile with stageComments := true } depth texts) := by
  simp only [commentLines, Bool.false_eq_true, if_false, if_true]
  induction texts with
  | nil => exact .nil
  | cons text rest ih => exact .line depth text ih

end Clauses

/-! ## Plans -/

namespace Plan

variable {profile : Profile}

/-- The tokens of a plan under both settings: the comments say what its stages do, a stage
before those below it. -/
def Annotated (profile : Profile) (plan : Plan) : Prop :=
  ∀ depth, Annotates (plan.query.tokensAt { profile with stageComments := false } depth)
    (plan.stages.map description)
    (plan.query.tokensAt { profile with stageComments := true } depth)

theorem Annotated.subquery {plan : Plan} (h : plan.Annotated profile) (depth : Nat) :
    Annotates
      ((Relation.subquery plan.query plan.aliasName).tokensAt
        { profile with stageComments := false } depth)
      (plan.stages.map description)
      ((Relation.subquery plan.query plan.aliasName).tokensAt
        { profile with stageComments := true } depth) := by
  have hclose : Annotates (lineAt depth ++ [symbol .rparen, space, ident plan.aliasName]) []
      (lineAt depth ++ [symbol .rparen, space, ident plan.aliasName]) :=
    .refl (by simp [lineAt, comment?])
  have hopen : ∀ token ∈ [symbol .lparen, newline], token.comment? = none := by simp [comment?]
  simpa [Relation.tokensAt] using ((h (depth + 1)).append hclose).prepend hopen

theorem annotates_joinLines {joined : List (Joined Plan)}
    (h : ∀ target ∈ joined, target.right.Annotated profile) (depth : Nat) :
    Annotates
      (joinLines { profile with stageComments := false } depth (joined.map Joined.query))
      ((joined.map (·.right)).flatMap fun right => right.stages.map description)
      (joinLines { profile with stageComments := true } depth (joined.map Joined.query)) := by
  induction joined with
  | nil => exact .nil
  | cons target rest ih =>
      have hright := (h target List.mem_cons_self).subquery depth
      have hrest := ih fun other hother => h other (List.mem_cons_of_mem _ hother)
      have hon := (steady_onLines profile depth
        (conditions target.right.aliasName target.keys target.window)).annotates
      have hkind : ∀ token ∈ lineAt depth ++ target.kind.tokens, token.comment? = none := by
        cases target.kind <;> simp [lineAt, JoinKind.tokens, comment?]
      simpa [joinLines, Joined.query, Join.tokensAt] using
        (((hright.append hon).prepend hkind).append hrest)

theorem annotated (profile : Profile) : ∀ plan : Plan, plan.Annotated profile := by
  apply children_induction
  intro plan ih depth
  have hcomments := annotates_commentLines profile depth [plan.description]
  have hselect := (steady_selectLines profile depth (selectItems plan.columns)).annotates
  have hgroup := (steady_groupLines profile depth plan.groupExprs).annotates
  have hjoins := annotates_joinLines (fun target htarget => ih _ (right_mem_children htarget)) depth
  have hfrom : ∀ token ∈ lineAt depth ++ [keyword .FROM, space], token.comment? = none := by
    simp [lineAt, comment?]
  rw [query_eq, stages_eq]
  rcases source_eq plan with ⟨table, tableAlias, hsource, hchildren, hjoined⟩ |
      ⟨child, hsource, hchildren⟩
  · have htable : ∀ token ∈ (tableRef table tableAlias).tokens, token.comment? = none := by
      simp [TableRef.tokens, comment?]
    have hsourceLines := (Annotates.refl htable).prepend hfrom
    rw [hsource, hchildren]
    rw [hjoined] at hjoins ⊢
    simpa [Query.tokensAt, sourceLines, Relation.tokensAt] using
      ((hcomments.append hselect).append (hsourceLines.append hjoins)).append hgroup
  · have hchild := ih child (by rw [hchildren]; exact List.mem_cons_self)
    have hsourceLines := (hchild.subquery depth).prepend hfrom
    rw [hsource, hchildren]
    simpa [Query.tokensAt, sourceLines, List.map_flatMap] using
      ((hcomments.append hselect).append (hsourceLines.append hjoins)).append hgroup

/-- With stage comments on, the comments say what the stages do, in preorder, and each stands
on a line of its own.  Without these lines the tokens are those that are written with stage
comments off. -/
theorem query_stageComments (profile : Profile) (plan : Plan) :
    InPreorder children stages ∧
      comments (plan.query.tokens { profile with stageComments := true }) =
        plan.stages.map description ∧
      (comments (plan.query.tokens { profile with stageComments := true })).length = plan.size ∧
      (∀ before text after,
        plan.query.tokens { profile with stageComments := true } =
            before ++ comment text :: after →
          ∃ front depth rest, before = front ++ [indent depth] ∧ after = newline :: rest) ∧
      dropCommentLines (plan.query.tokens { profile with stageComments := true }) =
        plan.query.tokens { profile with stageComments := false } := by
  have hplan := annotated profile plan 0
  have hcomments := hplan.comments_eq
  refine ⟨stages_inPreorder, hcomments, ?_, ?_, hplan.dropCommentLines_eq⟩
  · rw [Query.tokens, hcomments, List.length_map, size]
  · intro before text after hsplit
    exact hplan.between hsplit

example :
    (Session.run Sample.calls).nodes.getLast?.map (fun plan => comments (plan.query.tokens {})) =
      some ["Compute Metrics via Expressions", "Aggregate Measures", "Join Standard Outputs",
        "Read Elements From Semantic Model 'bookings'",
        "Read Elements From Semantic Model 'listings'"] := by
  decide +kernel

end Plan

end MetricSql
