import MetricSql.Proofs.Lexeme.StageComments

/-!
# Nested queries

A query inside another one is written as it would be on its own, only further to
the right.  The depth is handed down through queries, relations and joins, and all
that comes of it is the indentation of lines: an expression stays on the line it
starts on, whatever the depth.
-/

namespace MetricSql

namespace Token

/-- The token, further to the right if it is the indentation of a line. -/
def indentedBy (levels : Nat) : Token → Token
  | indent depth => indent (depth + levels)
  | token => token

theorem indentedBy_of_isInline {token : Token} (h : token.isInline = true) (levels : Nat) :
    token.indentedBy levels = token := by
  cases token with
  | indent depth => cases h
  | _ => rfl

theorem map_indentedBy_of_isInline {tokens : List Token} (h : tokens.all isInline = true)
    (levels : Nat) : tokens.map (indentedBy levels) = tokens := by
  rw [List.all_eq_true] at h
  calc tokens.map (indentedBy levels) = tokens.map id :=
        List.map_congr_left fun token htoken => indentedBy_of_isInline (h token htoken) levels
    _ = tokens := List.map_id tokens

end Token

open Token

/-! ## Lines -/

section Lines

variable (profile : Profile) (depth levels : Nat)

theorem map_lineAt : (lineAt depth).map (indentedBy levels) = lineAt (depth + levels) := rfl

theorem map_linesOf {separator : List Token} {entries : List (List Token)}
    (hseparator : separator.all isInline = true)
    (hentries : ∀ entry ∈ entries, entry.all isInline = true) :
    (linesOf depth separator entries).map (indentedBy levels) =
      linesOf (depth + levels) separator entries := by
  have hentry : ∀ entry ∈ entries, entry.map (indentedBy levels) = entry :=
    fun entry h => map_indentedBy_of_isInline (hentries entry h) levels
  cases entries with
  | nil => rfl
  | cons first rest =>
      have hrest : (rest.flatMap fun entry => lineAt depth ++ separator ++ entry).map
            (indentedBy levels) =
          rest.flatMap fun entry => lineAt (depth + levels) ++ separator ++ entry := by
        rw [List.map_flatMap]
        refine List.flatMap_congr fun entry hmem => ?_
        rw [List.map_append, List.map_append, map_lineAt,
          map_indentedBy_of_isInline hseparator, hentry entry (List.mem_cons_of_mem _ hmem)]
      rw [linesOf, List.map_append, List.map_append, map_lineAt,
        hentry first List.mem_cons_self, hrest, linesOf]

/-- The keyword of a clause on a line of its own, and its expressions below. -/
theorem map_clause (word : Keyword) {separator : List Token}
    (hseparator : separator.all isInline = true) (exprs : List Expr) :
    (lineAt depth ++ [keyword word] ++
        linesOf (depth + 1) separator (exprs.map (·.tokens profile))).map (indentedBy levels) =
      lineAt (depth + levels) ++ [keyword word] ++
        linesOf (depth + levels + 1) separator (exprs.map (·.tokens profile)) := by
  have hinline : ∀ entry ∈ exprs.map (·.tokens profile), entry.all isInline = true := by
    intro entry hentry
    rcases List.mem_map.mp hentry with ⟨e, -, rfl⟩
    exact Expr.all_isInline_tokens profile e
  rw [List.map_append, map_linesOf (depth + 1) levels hseparator hinline, Nat.add_right_comm]
  rfl

theorem map_commentLines (comments : List String) :
    (commentLines profile depth comments).map (indentedBy levels) =
      commentLines profile (depth + levels) comments := by
  unfold commentLines
  split
  next =>
    rw [List.map_flatMap]
    rfl
  next => rfl

theorem map_selectLines (items : List SelectItem) :
    (selectLines profile depth items).map (indentedBy levels) =
      selectLines profile (depth + levels) items := by
  have hinline : ∀ entry ∈ items.map (·.tokens profile), entry.all isInline = true := by
    intro entry hentry
    rcases List.mem_map.mp hentry with ⟨item, -, rfl⟩
    exact item.all_isInline_tokens profile
  have hlines := map_linesOf (depth + 1) levels (rfl : Expr.separator.all isInline = true) hinline
  rw [selectLines, List.map_append, hlines, Nat.add_right_comm]
  rfl

theorem map_groupLines (keys : List Expr) :
    (groupLines profile depth keys).map (indentedBy levels) =
      groupLines profile (depth + levels) keys := by
  unfold groupLines
  split
  next => rfl
  next => exact map_clause profile depth levels .GROUP_BY rfl keys

theorem map_onLines (conditions : List Expr) :
    (onLines profile depth conditions).map (indentedBy levels) =
      onLines profile (depth + levels) conditions := by
  unfold onLines
  split
  next => rfl
  next => exact map_clause profile depth levels .ON rfl conditions

theorem JoinKind.map_tokens (kind : JoinKind) :
    kind.tokens.map (indentedBy levels) = kind.tokens := by
  cases kind <;> rfl

end Lines

/-! ## Queries -/

-- The induction is on the tree, for every depth: a subquery stands one level deeper than the query
-- it is in.
mutual

theorem Query.map_tokensAt (profile : Profile) (depth levels : Nat) : ∀ query : Query,
    (query.tokensAt profile depth).map (indentedBy levels) =
      query.tokensAt profile (depth + levels)
  | ⟨comments, select, source, joins, groupBy⟩ => by
      rw [Query.tokensAt, Query.tokensAt]
      simp only [List.map_append]
      rw [map_commentLines, map_selectLines, map_groupLines,
        map_sourceLines profile depth levels source, map_joinLines profile depth levels joins]

theorem map_sourceLines (profile : Profile) (depth levels : Nat) : ∀ source : Option Relation,
    (sourceLines profile depth source).map (indentedBy levels) =
      sourceLines profile (depth + levels) source
  | none => rfl
  | some relation => by
      rw [sourceLines, sourceLines, List.map_append,
        Relation.map_tokensAt profile depth levels relation]
      rfl

theorem Relation.map_tokensAt (profile : Profile) (depth levels : Nat) : ∀ relation : Relation,
    (relation.tokensAt profile depth).map (indentedBy levels) =
      relation.tokensAt profile (depth + levels)
  | .table ref => rfl
  | .subquery query aliasName => by
      have hquery := Query.map_tokensAt profile (depth + 1) levels query
      rw [Nat.add_right_comm] at hquery
      rw [Relation.tokensAt, Relation.tokensAt]
      simp only [List.map_append]
      rw [hquery, map_lineAt]
      rfl

theorem map_joinLines (profile : Profile) (depth levels : Nat) : ∀ joins : List Join,
    (joinLines profile depth joins).map (indentedBy levels) =
      joinLines profile (depth + levels) joins
  | [] => rfl
  | join :: rest => by
      rw [joinLines, joinLines, List.map_append, List.map_append, map_lineAt,
        Join.map_tokensAt profile depth levels join, map_joinLines profile depth levels rest]

theorem Join.map_tokensAt (profile : Profile) (depth levels : Nat) : ∀ join : Join,
    (join.tokensAt profile depth).map (indentedBy levels) =
      join.tokensAt profile (depth + levels)
  | ⟨kind, relation, on⟩ => by
      rw [Join.tokensAt, Join.tokensAt, List.map_append, List.map_append,
        kind.map_tokens, Relation.map_tokensAt profile depth levels relation, map_onLines]

end

/-- A nested query has the tokens of the query on its own, with as many more levels of
indentation on every line as it is nested deep. -/
theorem Query.tokensAt_eq_indented (profile : Profile) (depth : Nat) (query : Query) :
    query.tokensAt profile depth = (query.tokensAt profile 0).map (indentedBy depth) := by
  rw [Query.map_tokensAt, Nat.zero_add]

end MetricSql
