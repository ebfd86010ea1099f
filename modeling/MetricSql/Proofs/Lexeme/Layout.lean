import MetricSql.Proofs.Lexeme.Spacing
import MetricSql.Proofs.Plan.Stages
import MetricSql.Proofs.Plan.Steps

/-!
# Layout of queries

Every clause of a query starts on a line of its own, so its tokens fit whatever
stands in them.  The text of a plan is therefore scanned into the lexemes of the
tokens it is written with: no name, number or comment runs into what follows it.
-/

namespace MetricSql

open Token

/-! ## Lines -/

theorem startsDelimited_lineAt (depth : Nat) (tokens : List Token) :
    StartsDelimited (lineAt depth ++ tokens) := by
  simp [lineAt, StartsDelimited, isDelimiter]

theorem Spaced.lineAt {tokens : List Token} (h : Spaced tokens) (depth : Nat) :
    Spaced (lineAt depth ++ tokens) :=
  (h.cons_free rfl).cons_free rfl

theorem startsDelimited_linesOf (depth : Nat) (separator : List Token)
    (entries : List (List Token)) : StartsDelimited (linesOf depth separator entries) := by
  cases entries with
  | nil => simp [linesOf, StartsDelimited]
  | cons first rest =>
      rw [linesOf, List.append_assoc]
      exact startsDelimited_lineAt depth _

/-- The entries after the first one. -/
theorem Spaced.flatMap_lines {depth : Nat} {separator : List Token}
    (hseparator : ∀ {tokens}, Spaced tokens → Spaced (separator ++ tokens))
    {entries : List (List Token)} (hentries : ∀ entry ∈ entries, Spaced entry) :
    Spaced (entries.flatMap fun entry => MetricSql.lineAt depth ++ separator ++ entry) ∧
      StartsDelimited
        (entries.flatMap fun entry => MetricSql.lineAt depth ++ separator ++ entry) := by
  induction entries with
  | nil => exact ⟨.nil, by simp [StartsDelimited]⟩
  | cons entry rest ih =>
      have hentry := hentries entry List.mem_cons_self
      obtain ⟨hrest, hstart⟩ := ih fun other h => hentries other (List.mem_cons_of_mem _ h)
      rw [List.flatMap_cons, List.append_assoc, List.append_assoc]
      exact ⟨(hseparator (hentry.append hstart hrest)).lineAt depth,
        startsDelimited_lineAt depth _⟩

theorem Spaced.linesOf {depth : Nat} {separator : List Token}
    (hseparator : ∀ {tokens}, Spaced tokens → Spaced (separator ++ tokens))
    {entries : List (List Token)} (hentries : ∀ entry ∈ entries, Spaced entry) :
    Spaced (linesOf depth separator entries) := by
  cases entries with
  | nil => exact .nil
  | cons first rest =>
      have hfirst := hentries first List.mem_cons_self
      obtain ⟨hrest, hstart⟩ := Spaced.flatMap_lines hseparator
        fun other h => hentries other (List.mem_cons_of_mem _ h)
      rw [MetricSql.linesOf, List.append_assoc]
      exact (hfirst.append hstart hrest).lineAt depth

theorem Spaced.separator_append {tokens : List Token} (h : Spaced tokens) :
    Spaced (Expr.separator ++ tokens) :=
  (h.cons_free rfl).cons_free rfl

/-! ## Clauses -/

section Clauses

variable {profile : Profile} {depth : Nat}

theorem SelectItem.spaced_tokens {item : SelectItem}
    (h : ∀ part ∈ item.expr.parts, part.isWritten = true) : Spaced (item.tokens profile) := by
  have hexpr := (Expr.phrase_tokens profile item.expr h).spaced
  unfold SelectItem.tokens
  cases item.aliasName with
  | none => simpa using hexpr
  | some aliasName =>
      have halias : Spaced [space, keyword .AS, space, ident aliasName] :=
        ((Spaced.single rfl rfl).cons_space rfl rfl).cons_free rfl
      exact hexpr.append (by simp [StartsDelimited, isDelimiter]) halias

theorem Spaced.commentLines_append {tokens : List Token} (h : Spaced tokens)
    (comments : List String) : Spaced (commentLines profile depth comments ++ tokens) := by
  unfold commentLines
  split
  next =>
    induction comments with
    | nil => exact h
    | cons line rest ih =>
        rw [List.flatMap_cons, List.append_assoc]
        exact ((ih.cons_free rfl).cons_next rfl rfl).cons_free rfl
  next => exact h

theorem spaced_selectLines {items : List SelectItem}
    (h : ∀ item ∈ items, Spaced (item.tokens profile)) :
    Spaced (selectLines profile depth items) := by
  have hlines : Spaced (linesOf (depth + 1) Expr.separator (items.map (·.tokens profile))) :=
    .linesOf Spaced.separator_append (by simpa using h)
  exact (hlines.cons rfl rfl (startsDelimited_linesOf _ _ _)).cons_free rfl

/-- The keyword of a clause on a line of its own, and its entries below. -/
theorem Spaced.clause {word : Keyword} {separator : List Token}
    (hseparator : ∀ {tokens}, Spaced tokens → Spaced (separator ++ tokens))
    {entries : List (List Token)} (hentries : ∀ entry ∈ entries, Spaced entry) :
    Spaced (MetricSql.lineAt depth ++ [keyword word] ++
      MetricSql.linesOf (depth + 1) separator entries) := by
  have hlines : Spaced (MetricSql.linesOf (depth + 1) separator entries) :=
    .linesOf hseparator hentries
  rw [List.append_assoc]
  exact (hlines.cons rfl rfl (startsDelimited_linesOf _ _ _)).lineAt depth

theorem spaced_groupLines {keys : List Expr} (h : ∀ key ∈ keys, Spaced (key.tokens profile)) :
    Spaced (groupLines profile depth keys) := by
  unfold groupLines
  split
  next => exact .nil
  next => exact .clause Spaced.separator_append (by simpa using h)

theorem spaced_onLines {conditions : List Expr}
    (h : ∀ condition ∈ conditions, Spaced (condition.tokens profile)) :
    Spaced (onLines profile depth conditions) := by
  unfold onLines
  split
  next => exact .nil
  next => exact .clause (fun htokens => htokens.cons_space rfl rfl) (by simpa using h)

theorem startsDelimited_groupLines (keys : List Expr) :
    StartsDelimited (groupLines profile depth keys) := by
  unfold groupLines
  split
  next => simp [StartsDelimited]
  next =>
    rw [List.append_assoc]
    exact startsDelimited_lineAt depth _

theorem startsDelimited_onLines (conditions : List Expr) :
    StartsDelimited (onLines profile depth conditions) := by
  unfold onLines
  split
  next => simp [StartsDelimited]
  next =>
    rw [List.append_assoc]
    exact startsDelimited_lineAt depth _

/-! ## Queries -/

theorem TableRef.spaced_tokens (ref : TableRef) : Spaced ref.tokens :=
  (Spaced.single rfl rfl).cons_space rfl rfl

theorem Relation.spaced_subquery {query : Query} {aliasName : String}
    (h : Spaced (query.tokensAt profile (depth + 1))) :
    Spaced (Relation.tokensAt profile depth (.subquery query aliasName)) := by
  have hclose : Spaced (lineAt depth ++ [symbol .rparen, space, ident aliasName]) :=
    ((Spaced.single rfl rfl).cons_space rfl rfl).lineAt depth
  rw [Relation.tokensAt, List.append_assoc, List.append_assoc]
  exact ((h.append (startsDelimited_lineAt depth _) hclose).cons_free rfl).cons_free rfl

theorem Join.spaced_tokensAt {kind : JoinKind} {relation : Relation} {conditions : List Expr}
    (hrelation : Spaced (relation.tokensAt profile depth))
    (hconditions : ∀ condition ∈ conditions, Spaced (condition.tokens profile)) :
    Spaced (Join.tokensAt profile depth ⟨kind, relation, conditions⟩) := by
  have hon : Spaced (onLines profile depth conditions) := spaced_onLines hconditions
  have hback := hrelation.append (startsDelimited_onLines conditions) hon
  rw [Join.tokensAt, List.append_assoc]
  cases kind with
  | inner => exact (hback.cons_space rfl rfl).cons_space rfl rfl
  | leftOuter => exact ((hback.cons_space rfl rfl).cons_space rfl rfl).cons_space rfl rfl

theorem spaced_joinLines {joins : List Join}
    (h : ∀ join ∈ joins, Spaced (join.tokensAt profile depth)) :
    Spaced (joinLines profile depth joins) ∧
      StartsDelimited (joinLines profile depth joins) := by
  induction joins with
  | nil => exact ⟨.nil, by simp [joinLines, StartsDelimited]⟩
  | cons join rest ih =>
      have hjoin := h join List.mem_cons_self
      obtain ⟨hrest, hstart⟩ := ih fun other hother => h other (List.mem_cons_of_mem _ hother)
      rw [joinLines, List.append_assoc]
      exact ⟨(hjoin.append hstart hrest).lineAt depth, startsDelimited_lineAt depth _⟩

theorem Query.spaced_tokensAt {comments : List String} {select : List SelectItem}
    {source : Relation} {joins : List Join} {groupBy : List Expr}
    (hselect : ∀ item ∈ select, Spaced (item.tokens profile))
    (hsource : Spaced (source.tokensAt profile depth))
    (hjoins : ∀ join ∈ joins, Spaced (join.tokensAt profile depth))
    (hgroup : ∀ key ∈ groupBy, Spaced (key.tokens profile)) :
    Spaced (Query.tokensAt profile depth ⟨comments, select, some source, joins, groupBy⟩) := by
  obtain ⟨hlines, hstart⟩ := spaced_joinLines hjoins
  have hback : Spaced (joinLines profile depth joins ++ groupLines profile depth groupBy) :=
    hlines.append (startsDelimited_groupLines groupBy) (spaced_groupLines hgroup)
  have hfrom : Spaced (source.tokensAt profile depth ++
      (joinLines profile depth joins ++ groupLines profile depth groupBy)) :=
    hsource.append (hstart.append (startsDelimited_groupLines groupBy)) hback
  have hlower : Spaced (lineAt depth ++ ([keyword .FROM, space] ++
      (source.tokensAt profile depth ++
        (joinLines profile depth joins ++ groupLines profile depth groupBy)))) :=
    (hfrom.cons_space rfl rfl).lineAt depth
  have hitems : Spaced (selectLines profile depth select) := spaced_selectLines hselect
  have hquery := hitems.append (startsDelimited_lineAt depth _) hlower
  rw [Query.tokensAt, sourceLines]
  simpa using hquery.commentLines_append comments

end Clauses

/-! ## Plans -/

namespace Plan

theorem expr_mem_groupExprs {plan : Plan} {e : Expr} (h : e ∈ plan.groupExprs) :
    ∃ column ∈ plan.columns, column.expr = e := by
  cases plan with
  | aggregate aliasName input keys measures columns =>
      obtain ⟨column, hcolumn, rfl⟩ := List.mem_map.mp h
      exact ⟨column, List.mem_of_mem_take hcolumn, rfl⟩
  | _ => cases h

theorem expr_of_mem_selectItems {columns : List Column} {item : SelectItem}
    (h : item ∈ selectItems columns) : ∃ column ∈ columns, column.expr = item.expr := by
  obtain ⟨column, hcolumn, rfl⟩ := List.mem_map.mp h
  refine ⟨column, hcolumn, ?_⟩
  unfold SelectItem.named
  split
  next => split <;> simp_all
  next => rfl

/-- The tokens of a plan fit. -/
theorem spaced_query {profile : Profile} (plan : Plan)
    (h : ∀ stage ∈ plan.stages, ∀ column ∈ stage.columns, ∀ part ∈ column.expr.parts,
      part.isWritten = true) (depth : Nat) : Spaced (plan.query.tokensAt profile depth) := by
  induction plan using children_induction generalizing depth with
  | step plan ih =>
      obtain ⟨hplan, hbelow⟩ := forall_stages_iff.mp h
      have hchild : ∀ child ∈ plan.children, ∀ depth,
          Spaced (child.query.tokensAt profile depth) :=
        fun child hmem => ih child hmem (hbelow child hmem)
      rw [query_eq]
      refine Query.spaced_tokensAt ?_ ?_ ?_ ?_
      · intro item hitem
        obtain ⟨column, hcolumn, hexpr⟩ := expr_of_mem_selectItems hitem
        exact SelectItem.spaced_tokens (hexpr ▸ hplan column hcolumn)
      · rcases source_eq plan with ⟨table, tableAlias, hsource, -⟩ | ⟨child, hsource, hmem⟩
        · rw [hsource]
          exact TableRef.spaced_tokens _
        · rw [hsource]
          exact Relation.spaced_subquery (hchild child (by simp [hmem]) (depth + 1))
      · intro join hjoin
        obtain ⟨target, htarget, rfl⟩ := List.mem_map.mp hjoin
        refine Join.spaced_tokensAt (Relation.spaced_subquery
          (hchild _ (right_mem_children htarget) (depth + 1))) ?_
        intro condition hcondition
        exact (Expr.phrase_tokens profile condition
          (forall_parts_conditions (fun _ _ => rfl) (fun _ _ _ => rfl) (fun _ => rfl)
            (fun _ => rfl) condition hcondition)).spaced
      · intro key hkey
        obtain ⟨column, hcolumn, rfl⟩ := expr_mem_groupExprs hkey
        exact (Expr.phrase_tokens profile _ (hplan column hcolumn)).spaced

/-- The text of a plan is scanned into the lexemes of its tokens. -/
theorem scan_text {profile : Profile} {plan : Plan} {sql : String}
    (h : ∀ stage ∈ plan.stages, ∀ column ∈ stage.columns, ∀ part ∈ column.expr.parts,
      part.isWritten = true) (htext : plan.query.text profile = .ok sql) :
    Lexeme.scan profile.dialect sql.toList =
      some ((plan.query.tokens profile).flatMap (Token.lexemes profile)) := by
  have hscans := (spaced_query plan h 0).scans htext (by simp [Delimited])
    (Lexeme.scans_nil profile.dialect)
  rw [List.append_nil, List.append_nil] at hscans
  exact hscans.scan_eq

end Plan

theorem Profile.text_of_render {profile : Profile} {plan : Plan} {sql : String}
    (h : profile.render plan = .ok sql) : plan.query.text profile = .ok sql := by
  simp only [Profile.render, bind_eq_ok] at h
  obtain ⟨-, -, -, -, htext⟩ := h
  cases hsql : plan.query.text profile with
  | ok text =>
      rw [hsql] at htext
      cases htext
      rfl
  | error cause =>
      rw [hsql] at htext
      cases htext

end MetricSql
