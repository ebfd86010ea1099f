import MetricSql.Proofs.Plan.Scope
import MetricSql.Proofs.Plan.Tower
import MetricSql.Proofs.Rows.Basic

/-!
# Nodes that are used again

A node has its alias from the call that built it, and keeps it wherever it is
used.  So a session may hold a node more than once, but never two different nodes
under one alias; and a join of nodes of a session is unambiguous exactly if no
node goes into it twice.  The planner does not check that.
-/

namespace MetricSql

/-! ## Names in a query -/

namespace Query

/-- The aliases of the relations that a query selects from, from left to right. -/
def aliases (query : Query) : List String :=
  query.source.toList.map Relation.aliasName ++ query.joins.map (·.relation.aliasName)

/-- What is selected, and the conditions of the joins. -/
def mentions (query : Query) : List Expr :=
  query.select.map (·.expr) ++ query.joins.flatMap (·.on)

/-- Every qualified column names exactly one of the relations. -/
def Unambiguous (query : Query) : Prop :=
  ∀ e ∈ query.mentions, ∀ aliasName name, .column (some aliasName) name ∈ e.parts →
    query.aliases.count aliasName = 1

end Query

namespace Plan

variable {aliasName : String} {left : Plan} {joined : List (Joined Plan)} {columns : List Column}

theorem selectItems_expr (columns : List Column) :
    (selectItems columns).map (·.expr) = columns.map (·.expr) := by
  simp only [selectItems, List.map_map]
  apply List.map_congr_left
  intro column _
  simp only [Function.comp, SelectItem.named]
  split
  · split <;> rfl
  · rfl

theorem aliases_query_join :
    (join aliasName left joined columns).query.aliases =
      (join aliasName left joined columns).children.map (·.aliasName) := by
  rw [query_eq]
  simp [Query.aliases, source, Plan.joined, children, Relation.aliasName, Joined.query]

theorem mentions_query_join :
    (join aliasName left joined columns).query.mentions =
      columns.map (·.expr) ++
        joined.flatMap fun target => conditions target.right.aliasName target.keys target.window := by
  rw [query_eq]
  simp [Query.mentions, Plan.joined, selectItems_expr, Joined.query, Plan.columns,
    List.flatMap_map]

/-- The columns in the condition of a key, and in those of a window. -/
theorem column_mem_parts_conditions {right name : String} {keys : List KeyMatch}
    {window : Option WindowMatch} {e : Expr} (he : e ∈ conditions right keys window)
    (h : .column (some aliasName) name ∈ e.parts) :
    aliasName = right ∨ (∃ key ∈ keys, aliasName = key.leftAlias ∧ name = key.leftColumn) ∨
      ∃ found, window = some found ∧ aliasName = found.leftAlias ∧ name = found.leftColumn := by
  rcases List.mem_append.mp he with he | he
  · rcases List.mem_map.mp he with ⟨key, hkey, rfl⟩
    simp only [keyCondition, Expr.of, Expr.parts, List.mem_cons, List.mem_append, reduceCtorEq,
      Expr.column.injEq, Option.some.injEq, List.not_mem_nil, or_false, false_or] at h
    rcases h with ⟨rfl, rfl⟩ | ⟨rfl, -⟩
    · exact .inr (.inl ⟨key, hkey, rfl, rfl⟩)
    · exact .inl rfl
  · cases window with
    | none => simp at he
    | some found =>
        have hcolumns : (aliasName = found.leftAlias ∧ name = found.leftColumn) ∨
            aliasName = right := by
          simp only [windowConditions, Expr.asOperand, Expr.isCompound, if_true, List.mem_cons,
            List.not_mem_nil, or_false] at he
          rcases he with rfl | rfl <;>
            simp only [Expr.of, Expr.parts, List.mem_cons, List.mem_append, reduceCtorEq,
              Expr.column.injEq, Option.some.injEq, List.not_mem_nil, or_false, false_or] at h <;>
            grind
        rcases hcolumns with ⟨rfl, rfl⟩ | rfl
        · exact .inr (.inr ⟨found, rfl, rfl, rfl⟩)
        · exact .inl rfl

end Plan

/-! ## One join -/

theorem JoinTarget.attachAll_keys_ne_nil {primary : String} {left left' : List LeftColumn}
    {targets : List JoinTarget} {joined : List (Joined Plan)}
    (h : attachAll primary left targets = .ok (left', joined)) :
    ∀ target ∈ joined, target.keys ≠ [] := by
  induction targets generalizing left joined with
  | nil =>
      cases h
      simp
  | cons target rest ih =>
      rcases attachAll_cons_eq_ok h with ⟨first, others, hattach, hrest, rfl⟩
      rcases attach_eq_ok hattach with ⟨hne, keys, window, hkeys, -, -, rfl⟩
      intro found hfound
      rcases List.mem_cons.mp hfound with rfl | hfound
      · intro hnil
        change keys = [] at hnil
        rw [hnil, List.forall₂_nil_right_iff] at hkeys
        exact hne hkeys
      · exact ih hrest found hfound

theorem nodup_cons_of_count {α : Type} [BEq α] [LawfulBEq α] {x : α} {xs : List α}
    (h : ∀ y ∈ xs, (x :: xs).count y = 1) : (x :: xs).Nodup := by
  rw [List.nodup_iff_count_le_one]
  intro y
  by_cases hy : y ∈ xs
  · exact (h y hy).le
  · rw [List.count_cons, List.count_eq_zero_of_not_mem hy]
    split <;> simp

namespace Plan

variable {primary node : Plan} {targets : List JoinTarget} {supply supply' : AliasSupply}

/-- The condition of a joined relation mentions a column of it. -/
theorem right_mem_conditions {right : String} {keys : List KeyMatch} {window : Option WindowMatch}
    (h : keys ≠ []) :
    ∃ e ∈ conditions right keys window, ∃ name, .column (some right) name ∈ e.parts := by
  rcases List.exists_mem_of_ne_nil keys h with ⟨key, hkey⟩
  refine ⟨keyCondition right key, List.mem_append_left _ (List.mem_map_of_mem hkey),
    key.rightColumn, ?_⟩
  simp [keyCondition, Expr.of, Expr.parts]

theorem nodup_of_unambiguous {aliasName : String} {joined : List (Joined Plan)}
    {columns : List Column} (hkeys : ∀ target ∈ joined, target.keys ≠ [])
    (h : (join aliasName primary joined columns).query.Unambiguous) :
    ((join aliasName primary joined columns).children.map (·.aliasName)).Nodup := by
  apply nodup_cons_of_count
  intro right hright
  simp only [List.map_map, List.mem_map, Function.comp_apply] at hright
  rcases hright with ⟨target, htarget, rfl⟩
  rcases right_mem_conditions (hkeys target htarget) with ⟨e, he, name, hcolumn⟩
  have hmentions : e ∈ (join aliasName primary joined columns).query.mentions := by
    rw [mentions_query_join]
    exact List.mem_append_right _ (List.mem_flatMap.mpr ⟨target, htarget, he⟩)
  have hcount := h e hmentions target.right.aliasName name hcolumn
  rwa [aliases_query_join] at hcount

/-- What a join mentions is offered by its relations, so it means one of them if their aliases
differ. -/
theorem unambiguous_of_nodup
    {joined : List (Joined Plan)} {left : List LeftColumn} {aliasName : String}
    (hattach : JoinTarget.attachAll primary.aliasName primary.leftColumns targets =
      .ok (left, joined))
    (hnodup : ((primary :: joined.map (·.right)).map (·.aliasName)).Nodup) :
    (join aliasName primary joined (left.map LeftColumn.toColumn)).query.Unambiguous := by
  rcases JoinTarget.attachAll_inScope primary.leftColumns_allOffered hattach with
    ⟨hoffered, hconditions⟩
  rw [← JoinTarget.attachAll_right hattach] at hoffered
  intro e he table name hcolumn
  rw [aliases_query_join, children]
  rw [mentions_query_join, List.map_map] at he
  rcases List.mem_append.mp he with hselect | hon
  · rcases List.mem_map.mp hselect with ⟨l, hl, rfl⟩
    simp only [Function.comp_apply, LeftColumn.toColumn, Expr.of, Expr.parts, List.mem_singleton,
      Expr.column.injEq, Option.some.injEq] at hcolumn
    rcases hcolumn with ⟨rfl, rfl⟩
    exact (hoffered l hl).count_eq_one hnodup
  · rcases List.mem_flatMap.mp hon with ⟨target, htarget, hcondition⟩
    rcases List.append_of_mem htarget with ⟨before, after, rfl⟩
    have hscope := hconditions before target after rfl
    have hsub : [primary] ++ before.map (·.right) ⊆
        primary :: (before ++ target :: after).map (·.right) := by
      simp
    rcases column_mem_parts_conditions hcondition hcolumn with
      rfl | ⟨key, hkey, rfl, rfl⟩ | ⟨window, hwindow, rfl, rfl⟩
    · exact List.count_eq_one_of_mem hnodup (by simp)
    · exact ((hscope.leftKeys key hkey).mono hsub).count_eq_one hnodup
    · exact ((hscope.window window hwindow).1.mono hsub).count_eq_one hnodup

theorem unambiguous_join_iff (hne : targets ≠ [])
    (h : primary.joinTargets targets supply = (.ok node, supply')) :
    node.children = primary :: targets.map (·.node) ∧
      node.query.aliases = node.children.map (·.aliasName) ∧
      (node.query.Unambiguous ↔ (node.children.map (·.aliasName)).Nodup) := by
  rcases joinTargets_eq_ok h with ⟨hnil, -, -⟩ | ⟨joined, -, hattach, -, rfl, -⟩
  · exact absurd hnil hne
  · refine ⟨by rw [children, JoinTarget.attachAll_right hattach], aliases_query_join, ?_, ?_⟩
    · exact nodup_of_unambiguous (JoinTarget.attachAll_keys_ne_nil hattach)
    · exact unambiguous_of_nodup hattach

end Plan

/-! ## Sessions -/

namespace Session

/-- Nodes carry aliases of the supply, and the alias tells which node it is. -/
structure Named (session : Session) : Prop where
  issued : ∀ node ∈ session.nodes,
    ∃ n < session.supply.subqueries, node.aliasName = AliasSupply.subqueryAlias n
  determined : ∀ a ∈ session.nodes, ∀ b ∈ session.nodes, a.aliasName = b.aliasName → a = b

/-- A call returns a node that was there, or a node under the next alias. -/
theorem answer?_alias {session : Session} {call : PlannerCall} {node : Plan}
    {supply : AliasSupply} (h : session.answer? call = some (.ok node, supply)) :
    (node ∈ session.nodes ∧ supply = session.supply) ∨
      node.aliasName = AliasSupply.subqueryAlias session.supply.subqueries ∧
        supply.subqueries = session.supply.subqueries + 1 := by
  rcases answer?_eq_ok h with ⟨model, elements, -, hread⟩ |
      ⟨place, calls, primary, targets, rfl, hplaces, hjoin⟩ |
      ⟨place, keys, measures, input, -, -, haggregate⟩ | ⟨place, terms, input, -, -, hmetrics⟩
  · rcases Model.read_eq_ok.mp hread with ⟨-, columns, -, rfl, rfl⟩
    exact .inr ⟨rfl, rfl⟩
  · rcases Plan.joinTargets_eq_ok hjoin with ⟨-, rfl, rfl⟩ | ⟨joined, -, -, -, rfl, rfl⟩
    · exact .inl ⟨List.mem_of_getElem? (List.forall₂_cons.mp hplaces).1, rfl⟩
    · exact .inr ⟨rfl, rfl⟩
  · rcases Plan.aggregateBy_eq_ok haggregate with ⟨columns, -, rfl, rfl⟩
    exact .inr ⟨rfl, rfl⟩
  · rcases Plan.computeMetrics_eq_ok hmetrics with ⟨keys, columns, -, rfl, rfl⟩
    exact .inr ⟨rfl, rfl⟩

theorem Named.step {session : Session} (h : session.Named) (call : PlannerCall) :
    (session.step call).Named := by
  rcases step_cases session call with ⟨hnodes, hsupply⟩ | ⟨node, hnodes, hanswer⟩
  · constructor
    · rw [hnodes, hsupply]
      exact h.issued
    · rw [hnodes]
      exact h.determined
  · rcases answer?_alias hanswer with ⟨hold, hsupply⟩ | ⟨halias, hnext⟩
    · have hmem : ∀ a ∈ (session.step call).nodes, a ∈ session.nodes := by
        rw [hnodes]
        intro a ha
        rcases List.mem_append.mp ha with ha | ha
        · exact ha
        · rwa [List.mem_singleton.mp ha]
      constructor
      · rw [hsupply]
        exact fun a ha => h.issued a (hmem a ha)
      · exact fun a ha b hb => h.determined a (hmem a ha) b (hmem b hb)
    · have hfresh : ∀ a ∈ session.nodes, a.aliasName ≠ node.aliasName := by
        intro a ha heq
        rcases h.issued a ha with ⟨n, hn, hissued⟩
        rw [hissued, halias] at heq
        exact absurd (AliasSupply.subqueryAlias_injective heq) hn.ne
      constructor
      · rw [hnodes, hnext]
        intro a ha
        rcases List.mem_append.mp ha with ha | ha
        · rcases h.issued a ha with ⟨n, hn, hissued⟩
          exact ⟨n, Nat.lt_succ_of_lt hn, hissued⟩
        · rw [List.mem_singleton.mp ha]
          exact ⟨_, Nat.lt_succ_self _, halias⟩
      · rw [hnodes]
        intro a ha b hb heq
        rcases List.mem_append.mp ha with ha | ha <;> rcases List.mem_append.mp hb with hb | hb
        · exact h.determined a ha b hb heq
        · rw [List.mem_singleton.mp hb] at heq
          exact absurd heq (hfresh a ha)
        · rw [List.mem_singleton.mp ha] at heq
          exact absurd heq.symm (hfresh b hb)
        · rw [List.mem_singleton.mp ha, List.mem_singleton.mp hb]

/-- However often nodes are used. -/
theorem run_named (calls : List PlannerCall) : (run calls).Named := by
  have hfold : ∀ (calls : List PlannerCall) (session : Session), session.Named →
      (calls.foldl Session.step session).Named := by
    intro calls
    induction calls with
    | nil => exact fun session h => h
    | cons call rest ih => exact fun session h => ih _ (h.step call)
  exact hfold calls {} (by constructor <;> simp)

section Join

variable {calls : List PlannerCall} {place : Nat} {targets : List TargetCall} {node : Plan}
  {supply : AliasSupply} {session : Session}

/-- A join that is accepted selects from the nodes that the call names, under their aliases. -/
theorem join_children (hne : targets ≠ [])
    (h : session.answer? (.join place targets) = some (.ok node, supply)) :
    List.Forall₂ (fun place child => session.nodes[place]? = some child)
        (place :: targets.map (·.node)) node.children ∧
      node.query.aliases = node.children.map (·.aliasName) ∧
      (node.query.Unambiguous ↔ (node.children.map (·.aliasName)).Nodup) := by
  rcases answer?_eq_ok h with ⟨model, elements, hcall, -⟩ |
      ⟨_, _, primary, given, -, hplaces, hjoin⟩ | ⟨_, keys, measures, input, hcall, -, -⟩ |
      ⟨_, terms, input, hcall, -, -⟩
  · cases hcall
  · have hgiven : given ≠ [] := by
      rintro rfl
      have hlength := hplaces.length_eq
      simp [PlannerCall.uses, hne] at hlength
    rcases Plan.unambiguous_join_iff hgiven hjoin with ⟨hchildren, haliases, hiff⟩
    rw [← hchildren] at hplaces
    exact ⟨hplaces, haliases, hiff⟩
  · cases hcall
  · cases hcall

theorem aliases_of_places {places : List Nat} {children : List Plan}
    (h : List.Forall₂ (fun place child => session.nodes[place]? = some child) places children) :
    children.map (·.aliasName) =
      places.filterMap fun place => (session.nodes.map (·.aliasName))[place]? := by
  induction h with
  | nil => rfl
  | cons hplace _ ih => simp [hplace, ih]

/-- The aliases of a join that is accepted differ exactly if no node goes into it twice, and then and
only then every qualified column of what is selected and of the conditions names one relation. -/
theorem join_unambiguous_iff (hne : targets ≠ [])
    (h : (run calls).answer? (.join place targets) = some (.ok node, supply)) :
    List.Forall₂ (fun place child => (run calls).nodes[place]? = some child)
        (place :: targets.map (·.node)) node.children ∧
      node.query.aliases = node.children.map (·.aliasName) ∧
      (node.query.aliases.Nodup ↔ node.children.Nodup) ∧
      (node.query.Unambiguous ↔ node.children.Nodup) := by
  rcases join_children hne h with ⟨hplaces, haliases, hiff⟩
  have hnodes : ∀ child ∈ node.children, child ∈ (run calls).nodes := by
    intro child hchild
    rcases forall₂_exists_left hplaces hchild with ⟨used, -, hfound⟩
    exact List.mem_of_getElem? hfound
  have hdistinct : (node.children.map (·.aliasName)).Nodup ↔ node.children.Nodup := by
    constructor
    · exact List.Nodup.of_map _
    · apply List.Nodup.map_on
      intro a ha b hb
      exact (run_named calls).determined a (hnodes a ha) b (hnodes b hb)
  exact ⟨hplaces, haliases, haliases ▸ hdistinct, hiff.trans hdistinct⟩

end Join

end Session

namespace Sample

def stayReads : List PlannerCall := [
  .read bookings [⟨"listing", none⟩, ⟨"amount", none⟩],
  .read listings [⟨"listing", none⟩, ⟨"country", none⟩]]

/-- Joined to the rows of the same listing, under the qualifier. -/
def sameListing (node : Nat) (qualifier : String) : TargetCall :=
  { node, keys := ["listing"], qualifier := some qualifier }

/-- Whether the call is answered with a node. -/
def accepts (session : Session) (call : PlannerCall) : Bool :=
  (session.answer? call).any fun answer => returns answer fun _ _ => true

theorem exists_of_accepts {session : Session} {call : PlannerCall}
    (h : accepts session call = true) :
    ∃ node supply, session.answer? call = some (.ok node, supply) := by
  simp only [accepts, Option.any_eq_true] at h
  rcases h with ⟨answer, hanswer, hreturns⟩
  rcases exists_of_returns hreturns with ⟨node, supply, rfl, -⟩
  exact ⟨node, supply, hanswer⟩

theorem aliases_stayReads :
    (Session.run stayReads).nodes.map (·.aliasName) = ["subq_0", "subq_1"] := by
  decide +kernel

theorem stays_join_listings :
    ∃ node supply,
      (Session.run stayReads).answer? (.join 0 [sameListing 1 "listing"]) =
        some (.ok node, supply) ∧
      node.query.aliases = ["subq_0", "subq_1"] ∧ node.query.Unambiguous := by
  have haccepts : accepts (Session.run stayReads) (.join 0 [sameListing 1 "listing"]) = true := by
    decide +kernel
  rcases exists_of_accepts haccepts with ⟨node, supply, hanswer⟩
  rcases Session.join_unambiguous_iff (by simp) hanswer with ⟨hplaces, haliases, hnodup, hiff⟩
  have hnames : node.query.aliases = ["subq_0", "subq_1"] := by
    rw [haliases, Session.aliases_of_places hplaces, aliases_stayReads]
    rfl
  refine ⟨node, supply, hanswer, hnames, hiff.mpr (hnodup.mp ?_)⟩
  rw [hnames]
  decide

/-- The listings joined to themselves: both relations of the query have one alias. -/
theorem listings_join_listings :
    ∃ node supply,
      (Session.run stayReads).answer? (.join 1 [sameListing 1 "other"]) =
        some (.ok node, supply) ∧
      node.query.aliases = ["subq_1", "subq_1"] ∧ ¬ node.query.Unambiguous := by
  have haccepts : accepts (Session.run stayReads) (.join 1 [sameListing 1 "other"]) = true := by
    decide +kernel
  rcases exists_of_accepts haccepts with ⟨node, supply, hanswer⟩
  rcases Session.join_children (by simp) hanswer with ⟨hplaces, haliases, hiff⟩
  have hnames : node.query.aliases = ["subq_1", "subq_1"] := by
    rw [haliases, Session.aliases_of_places hplaces, aliases_stayReads]
    rfl
  refine ⟨node, supply, hanswer, hnames, ?_⟩
  rw [hiff, ← haliases, hnames]
  decide

end Sample

end MetricSql
