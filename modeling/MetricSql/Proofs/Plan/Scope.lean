import MetricSql.Proofs.Plan.Session
import MetricSql.Proofs.Plan.Stages

/-!
# Plans are well scoped

Every stage selects from its children under their aliases.  `Plan.Scoped` says
that what a stage mentions is there and is meant by one child only, and
`Session.run_wellScoped` that all stages of all plans are scoped, whatever calls
have built them, as long as no node goes into two calls.

The invariant of a session is `Session.Sound`: besides being scoped, nodes that
have not been used yet have different aliases.
-/

namespace MetricSql

namespace Plan

/-- One of the relations has the alias and a column of the name. -/
def Offered (relations : List Plan) (aliasName name : String) : Prop :=
  ∃ relation ∈ relations,
    relation.aliasName = aliasName ∧ name ∈ relation.columnNames

/-- What a column reference of a stage can mean: a column of the table that is
read, or a column of exactly one child. -/
def Resolves : Plan → String → String → Prop
  | .read _ _ _ tableAlias _, aliasName, _ => aliasName = tableAlias
  | stage, aliasName, name =>
      (stage.children.map (·.aliasName)).count aliasName = 1 ∧
        Offered stage.children aliasName name

end Plan

/-- The left columns of the conditions are offered by the relations before the
joined one, and the other columns are its own. -/
structure Joined.InScope (before : List Plan) (joined : Joined Plan) : Prop where
  leftKeys : ∀ key ∈ joined.keys, Plan.Offered before key.leftAlias key.leftColumn
  rightKeys : ∀ key ∈ joined.keys, key.rightColumn ∈ joined.right.columnNames
  window : ∀ window, joined.window = some window →
    Plan.Offered before window.leftAlias window.leftColumn ∧
      window.startColumn ∈ joined.right.columnNames ∧
      window.stopColumn ∈ joined.right.columnNames

namespace Plan

def ConditionsInScope : Plan → Prop
  | .join _ left joined _ =>
      ∀ before current after, joined = before ++ current :: after →
        current.InScope (left :: before.map (·.right))
  | _ => True

/-- A stage is scoped when its names are distinct and everything it mentions is
there. -/
structure Scoped (stage : Plan) : Prop where
  names : stage.columnNames.Nodup
  aliases : (stage.children.map (·.aliasName)).Nodup
  references : ∀ column ∈ stage.columns, ∀ aliasName name,
    .column (some aliasName) name ∈ column.expr.parts →
      stage.Resolves aliasName name
  conditions : stage.ConditionsInScope

/-- All stages of the plan are scoped. -/
def WellScoped (plan : Plan) : Prop := ∀ stage ∈ plan.stages, stage.Scoped

theorem wellScoped_iff {plan : Plan} :
    plan.WellScoped ↔ plan.Scoped ∧ ∀ child ∈ plan.children, child.WellScoped :=
  forall_stages_iff

theorem Offered.mono {relations more : List Plan} {aliasName name : String}
    (h : Offered relations aliasName name) (hsub : relations ⊆ more) :
    Offered more aliasName name := by
  obtain ⟨relation, hmem, halias, hname⟩ := h
  exact ⟨relation, hsub hmem, halias, hname⟩

/-- A column of one of several relations with distinct aliases means that
relation only. -/
theorem Offered.count_eq_one {relations : List Plan} {aliasName name : String}
    (h : Offered relations aliasName name)
    (hnodup : (relations.map (·.aliasName)).Nodup) :
    (relations.map (·.aliasName)).count aliasName = 1 := by
  obtain ⟨relation, hmem, rfl, -⟩ := h
  exact List.count_eq_one_of_mem hnodup (List.mem_map_of_mem hmem)

theorem name_mem_of_column? {plan : Plan} {name : String} {column : Column}
    (h : plan.column? name = some column) :
    column.name = name ∧ name ∈ plan.columnNames := by
  have hname : column.name = name := by simpa using List.find?_some h
  have hmem := List.mem_of_find?_eq_some h
  exact ⟨hname, hname ▸ List.mem_map_of_mem (f := (·.name)) hmem⟩

end Plan

/-! ## Expressions of the planners -/

namespace Expr

theorem column_mem_parts_asOperand {e : Expr} {table : Option String}
    {name : String} :
    .column table name ∈ e.asOperand.parts ↔ .column table name ∈ e.parts := by
  unfold asOperand
  split <;> simp [parts]

theorem column_mem_parts_physical {tableAlias expression aliasName name : String}
    (h : .column (some aliasName) name ∈ (physical tableAlias expression).parts) :
    aliasName = tableAlias := by
  unfold physical at h
  split at h
  next =>
    simp only [of, parts, List.mem_singleton, column.injEq, Option.some.injEq] at h
    exact h.1
  next => simp [parts] at h

end Expr

theorem Model.column_mem_parts_elementColumn {tableAlias aliasName name : String}
    {ref : ElementRef} {element : Element}
    (h : .column (some aliasName) name ∈
      (elementColumn tableAlias ref element).expr.parts) :
    aliasName = tableAlias := by
  cases element with
  | entity entity => exact Expr.column_mem_parts_physical h
  | dimension dimension =>
      simp only [elementColumn] at h
      split at h
      next =>
        simp only [Expr.parts, List.mem_cons, reduceCtorEq, false_or] at h
        exact Expr.column_mem_parts_physical h
      next => exact Expr.column_mem_parts_physical h
  | measure measure =>
      simp only [elementColumn] at h
      split at h
      next => exact Expr.column_mem_parts_physical h
      next => simp [Expr.parts] at h

/-- An aggregate mentions the column it aggregates and no other. -/
theorem MeasureTerm.column_mem_parts_expr {term : MeasureTerm}
    {aliasName name table column : String} {e : Expr}
    (hexpr : term.expr (.of aliasName name) = .ok e)
    (h : .column (some table) column ∈ e.parts) :
    table = aliasName ∧ column = name := by
  unfold MeasureTerm.expr at hexpr
  split at hexpr
  case h_8 =>
    split at hexpr
    next =>
      cases hexpr
      simpa [Expr.of, Expr.parts] using h
    next => cases hexpr
  all_goals
    cases hexpr
    simpa [Expr.sum, Expr.count, Expr.min, Expr.max, Expr.countDistinct, Expr.avg,
      Expr.indicator, Expr.of, Expr.parts, Expr.argParts, Expr.branchParts,
      Expr.otherwiseParts] using h

theorem Operator.column_mem_parts_apply {operator : Operator} {left right : Expr}
    {table : Option String} {name : String}
    (h : .column table name ∈ (operator.apply left right).parts) :
    .column table name ∈ left.parts ∨ .column table name ∈ right.parts := by
  cases operator <;>
    simpa [Operator.apply, Expr.parts, Expr.column_mem_parts_asOperand] using h

/-- A compiled formula mentions columns of its input only. -/
theorem Formula.column_mem_parts_compile {input : Plan} {metric : String}
    {formula : Formula} {e : Expr} {dataType : Option DataType}
    (hcompile : formula.compile input metric = .ok (e, dataType))
    {table column : String} (h : .column (some table) column ∈ e.parts) :
    table = input.aliasName ∧ column ∈ input.columnNames := by
  induction formula generalizing e dataType with
  | input name =>
      simp only [Formula.compile] at hcompile
      split at hcompile
      next found hfound =>
        cases hcompile
        obtain ⟨hcolumn, -⟩ := Option.filter_eq_some_iff.mp hfound
        simp only [Expr.of, Expr.parts, List.mem_singleton, Expr.column.injEq,
          Option.some.injEq] at h
        obtain ⟨rfl, rfl⟩ := h
        exact ⟨rfl, (Plan.name_mem_of_column? hcolumn).2⟩
      next => cases hcompile
  | literal value =>
      simp only [Formula.compile] at hcompile
      split at hcompile
      next =>
        cases hcompile
        simp [Expr.parts] at h
      next => cases hcompile
  | neg operand ih =>
      simp only [Formula.compile, bind_eq_ok] at hcompile
      obtain ⟨⟨inner, innerType⟩, hinner, ⟨⟩⟩ := hcompile
      simp only [Expr.parts, List.mem_cons, reduceCtorEq, false_or,
        Expr.column_mem_parts_asOperand] at h
      exact ih hinner h
  | binary operator left right ihleft ihright =>
      simp only [Formula.compile, bind_eq_ok] at hcompile
      obtain ⟨⟨l, leftType⟩, hleft, ⟨r, rightType⟩, hright, ⟨⟩⟩ := hcompile
      rcases Operator.column_mem_parts_apply h with h | h
      · exact ihleft hleft h
      · exact ihright hright h
  | ratio numerator denominator ihnum ihden =>
      simp only [Formula.compile, bind_eq_ok] at hcompile
      obtain ⟨⟨num, numType⟩, hnum, ⟨den, denType⟩, hden, ⟨⟩⟩ := hcompile
      simp only [Expr.parts, List.mem_cons, List.mem_append, reduceCtorEq,
        false_or] at h
      rcases h with h | h
      · exact ihnum hnum h
      · exact ihden hden h

/-! ## Provenance of the left side of a join -/

/-- Every column of the left side is a column of one of the relations. -/
def LeftColumn.AllOffered (relations : List Plan) (left : List LeftColumn) : Prop :=
  ∀ l ∈ left, Plan.Offered relations l.aliasName l.column

theorem Plan.leftColumns_allOffered (plan : Plan) :
    LeftColumn.AllOffered [plan] plan.leftColumns := by
  intro l hl
  obtain ⟨column, hcolumn, rfl⟩ := List.mem_map.mp hl
  exact ⟨plan, List.mem_singleton.mpr rfl, rfl, List.mem_map_of_mem hcolumn⟩

theorem LeftColumn.AllOffered.of_find? {relations : List Plan}
    {left : List LeftColumn} (hleft : AllOffered relations left)
    {name : String} {l : LeftColumn} (h : find? left name = some l) :
    Plan.Offered relations l.aliasName l.column :=
  hleft l (List.mem_of_find?_eq_some h)

namespace JoinTarget

theorem gains_allOffered (target : JoinTarget) :
    LeftColumn.AllOffered [target.node] target.gains := by
  intro l hl
  obtain ⟨column, hcolumn, rfl⟩ := List.mem_map.mp hl
  have hmem : column ∈ target.node.columns := (List.mem_filter.mp hcolumn).1
  exact ⟨target.node, List.mem_singleton.mpr rfl, rfl, List.mem_map_of_mem hmem⟩

/-- One target more: its conditions are in scope of the relations so far, and
the left side is offered by them and the target. -/
theorem attach_inScope {relations : List Plan} {primary : String}
    {left left' : List LeftColumn} {target : JoinTarget} {joined : Joined Plan}
    (hleft : LeftColumn.AllOffered relations left)
    (h : target.attach primary left = .ok (left', joined)) :
    joined.right = target.node ∧ joined.InScope relations ∧
      LeftColumn.AllOffered (relations ++ [target.node]) left' := by
  obtain ⟨-, keys, window, hkeys, hwindow, rfl, rfl⟩ := attach_eq_ok h
  have hkey : ∀ key ∈ keys,
      Plan.Offered relations key.leftAlias key.leftColumn ∧
        key.rightColumn ∈ target.node.columnNames := by
    intro key hmem
    obtain ⟨name, -, hmatch⟩ := forall₂_exists_left hkeys hmem
    obtain ⟨l, r, hl, hr, rfl⟩ := matchKey_eq_ok hmatch
    exact ⟨hleft.of_find? hl, (Plan.name_mem_of_column? hr).2⟩
  refine ⟨rfl, ⟨fun key hmem => (hkey key hmem).1,
    fun key hmem => (hkey key hmem).2, ?_⟩, ?_⟩
  · rintro found rfl
    rcases matchWindow_eq_ok hwindow with ⟨-, hnone⟩ | hsome
    · cases hnone
    · obtain ⟨window, time, start, stop, -, htime, hstart, hstop, hfound⟩ := hsome
      cases hfound
      exact ⟨hleft.of_find? htime, (Plan.name_mem_of_column? hstart).2,
        (Plan.name_mem_of_column? hstop).2⟩
  · intro l hl
    rcases List.mem_append.mp hl with hl | hl
    · exact (hleft l hl).mono (List.subset_append_left _ _)
    · exact (target.gains_allOffered l hl).mono (List.subset_append_right _ _)

/-- The same for all targets, each in scope of the relations before it. -/
theorem attachAll_inScope {relations : List Plan} {primary : String}
    {left left' : List LeftColumn} {targets : List JoinTarget}
    {joined : List (Joined Plan)}
    (hleft : LeftColumn.AllOffered relations left)
    (h : attachAll primary left targets = .ok (left', joined)) :
    LeftColumn.AllOffered (relations ++ targets.map (·.node)) left' ∧
      ∀ before current after, joined = before ++ current :: after →
        current.InScope (relations ++ before.map (·.right)) := by
  induction targets generalizing relations left joined with
  | nil =>
      cases h
      simpa using hleft
  | cons target rest ih =>
      obtain ⟨first, others, hattach, hrest, rfl⟩ := attachAll_cons_eq_ok h
      obtain ⟨hright, hfirst, hmiddle⟩ := attach_inScope hleft hattach
      obtain ⟨hoffered, hothers⟩ := ih hmiddle hrest
      refine ⟨by simpa using hoffered, ?_⟩
      intro before current after hsplit
      cases before with
      | nil =>
          simp only [List.nil_append, List.cons.injEq] at hsplit
          obtain ⟨rfl, -⟩ := hsplit
          simpa using hfirst
      | cons second before =>
          simp only [List.cons_append, List.cons.injEq] at hsplit
          obtain ⟨rfl, hsplit⟩ := hsplit
          have hcurrent := hothers before current after hsplit
          simpa [hright] using hcurrent

end JoinTarget

/-! ## Stages that the planners return -/

theorem Model.read_wellScoped {model : Model} {elements : List ElementRef}
    {supply supply' : AliasSupply} {node : Plan}
    (h : model.read elements supply = (.ok node, supply')) :
    node.WellScoped := by
  obtain ⟨-, columns, hbind, rfl, -⟩ := Model.read_eq_ok.mp h
  obtain ⟨hbind, hnames⟩ := Model.bindAll_eq_ok.mp hbind
  refine Plan.wellScoped_iff.mpr ⟨⟨hnames, by simp [Plan.children], ?_, trivial⟩,
    by simp [Plan.children]⟩
  intro column hcolumn aliasName name href
  obtain ⟨ref, -, hbound⟩ := forall₂_exists_left hbind hcolumn
  obtain ⟨element, -, -, rfl⟩ := Model.bindElement_eq_ok.mp hbound
  exact Model.column_mem_parts_elementColumn href

namespace Plan

/-- The relations of a join must have different aliases; the planner leaves that
to its callers. -/
theorem joinTargets_wellScoped {primary node : Plan} {targets : List JoinTarget}
    {supply supply' : AliasSupply}
    (hprimary : primary.WellScoped) (htargets : ∀ t ∈ targets, t.node.WellScoped)
    (haliases : ((primary :: targets.map (·.node)).map (·.aliasName)).Nodup)
    (h : primary.joinTargets targets supply = (.ok node, supply')) :
    node.WellScoped := by
  rcases joinTargets_eq_ok h with ⟨-, rfl, -⟩ | ⟨joined, -, hattach, hnames, rfl, -⟩
  · exact hprimary
  · obtain ⟨hoffered, hconditions⟩ :=
      JoinTarget.attachAll_inScope primary.leftColumns_allOffered hattach
    have hchildren := JoinTarget.attachAll_right hattach
    refine wellScoped_iff.mpr ⟨⟨hnames, ?_, ?_, ?_⟩, ?_⟩
    · simpa [children, hchildren] using haliases
    · intro column hcolumn aliasName name href
      obtain ⟨l, hl, rfl⟩ := List.mem_map.mp hcolumn
      simp only [LeftColumn.toColumn, Expr.of, Expr.parts, List.mem_singleton,
        Expr.column.injEq, Option.some.injEq] at href
      obtain ⟨rfl, rfl⟩ := href
      have hl := hoffered l hl
      simp only [List.singleton_append] at hl
      simp only [Resolves, children, hchildren]
      exact ⟨hl.count_eq_one haliases, hl⟩
    · intro before current after hsplit
      simpa using hconditions before current after hsplit
    · exact JoinTarget.attachAll_forall_children hattach hprimary htargets

/-- A stage over one input is scoped when its names are distinct and its columns
mention columns of the input. -/
theorem scoped_of_input {stage input : Plan} (hchildren : stage.children = [input])
    (hnames : stage.columnNames.Nodup)
    (hcolumns : ∀ column ∈ stage.columns, ∀ aliasName name,
      .column (some aliasName) name ∈ column.expr.parts →
        aliasName = input.aliasName ∧ name ∈ input.columnNames)
    (hinput : input.WellScoped) : stage.WellScoped := by
  have hconditions : stage.ConditionsInScope := by
    cases stage with
    | join aliasName left joined columns =>
        intro before current after hsplit
        simp [children, hsplit] at hchildren
    | read => trivial
    | aggregate => trivial
    | metrics => trivial
  refine wellScoped_iff.mpr ⟨⟨hnames, by simp [hchildren], ?_, hconditions⟩, ?_⟩
  · intro column hcolumn aliasName name href
    obtain ⟨rfl, hname⟩ := hcolumns column hcolumn aliasName name href
    cases stage with
    | read => simp [children] at hchildren
    | join | aggregate | metrics =>
        simp only [Resolves, hchildren]
        exact ⟨by simp, input, by simp, rfl, hname⟩
  · simpa [hchildren] using hinput

theorem through_mentions {input : Plan} {source : Column} {key aliasName name : String}
    (hsource : input.column? key = some source)
    (href : .column (some aliasName) name ∈
      (source.through input.aliasName).expr.parts) :
    aliasName = input.aliasName ∧ name ∈ input.columnNames := by
  obtain ⟨rfl, hname⟩ := name_mem_of_column? hsource
  simp only [Column.through, Expr.of, Expr.parts, List.mem_singleton,
    Expr.column.injEq, Option.some.injEq] at href
  obtain ⟨rfl, rfl⟩ := href
  exact ⟨rfl, hname⟩

theorem aggregateBy_wellScoped {input node : Plan} {keys : GroupKeys}
    {measures : List MeasureTerm} {supply supply' : AliasSupply}
    (hinput : input.WellScoped)
    (h : input.aggregateBy keys measures supply = (.ok node, supply')) :
    node.WellScoped := by
  obtain ⟨columns, hcolumns, rfl, -⟩ := aggregateBy_eq_ok h
  obtain ⟨-, keyColumns, measureColumns, hkeys, hmeasures, rfl, hnames⟩ :=
    aggregateColumns_eq_ok hcolumns
  refine scoped_of_input rfl hnames ?_ hinput
  intro column hcolumn aliasName name href
  rcases List.mem_append.mp hcolumn with hcolumn | hcolumn
  · obtain ⟨key, -, hkey⟩ := forall₂_exists_left hkeys hcolumn
    obtain ⟨source, hsource, -, rfl⟩ := keyColumn_eq_ok hkey
    exact through_mentions hsource href
  · obtain ⟨term, -, hterm⟩ := forall₂_exists_left hmeasures hcolumn
    obtain ⟨source, e, hsource, -, hexpr, rfl⟩ := measureColumn_eq_ok hterm
    obtain ⟨rfl, rfl⟩ := MeasureTerm.column_mem_parts_expr hexpr href
    exact ⟨rfl, (name_mem_of_column? hsource).2⟩

theorem computeMetrics_wellScoped {input node : Plan} {terms : List MetricTerm}
    {supply supply' : AliasSupply} (hinput : input.WellScoped)
    (h : input.computeMetrics terms supply = (.ok node, supply')) :
    node.WellScoped := by
  obtain ⟨keys, columns, hparts, rfl, -⟩ := computeMetrics_eq_ok h
  obtain ⟨-, -, metricColumns, hmetrics, rfl, hnames⟩ := metricParts_eq_ok hparts
  refine scoped_of_input rfl hnames ?_ hinput
  intro column hcolumn aliasName name href
  rcases List.mem_append.mp hcolumn with hcolumn | hcolumn
  · obtain ⟨source, hsource, rfl⟩ := List.mem_map.mp hcolumn
    obtain ⟨key, -, hsource⟩ := List.mem_filterMap.mp hsource
    exact through_mentions hsource href
  · obtain ⟨term, -, hterm⟩ := forall₂_exists_left hmetrics hcolumn
    obtain ⟨e, dataType, hcompile, rfl⟩ := metricColumn_eq_ok hterm
    exact Formula.column_mem_parts_compile hcompile href

end Plan

/-! ## Sessions in which no node is used twice -/

namespace Session

/-- Nodes are scoped and carry aliases of the supply, and of the nodes that have
not been used no two have the same alias. -/
structure Sound (session : Session) (used : List Nat) : Prop where
  wellScoped : ∀ node ∈ session.nodes, node.WellScoped
  issued : ∀ node ∈ session.nodes,
    ∃ n < session.supply.subqueries, node.aliasName = AliasSupply.subqueryAlias n
  apart : ∀ i j a b, session.nodes[i]? = some a → session.nodes[j]? = some b →
    i ∉ used → j ∉ used → a.aliasName = b.aliasName → i = j

theorem sound_initial : Sound {} [] := by
  constructor <;> simp

namespace Sound

variable {session : Session} {used : List Nat}

theorem mono (hsound : session.Sound used) {more : List Nat} (hsub : used ⊆ more) :
    session.Sound more := by
  refine ⟨hsound.wellScoped, hsound.issued, ?_⟩
  intro i j a b hi hj hiu hju heq
  exact hsound.apart i j a b hi hj (fun h => hiu (hsub h)) (fun h => hju (hsub h)) heq

theorem wellScoped_of_getElem? (hsound : session.Sound used) {place : Nat}
    {node : Plan} (h : session.nodes[place]? = some node) : node.WellScoped :=
  hsound.wellScoped node (List.mem_of_getElem? h)

/-- Different places that have not been used hold different aliases. -/
theorem nodup_aliases (hsound : session.Sound used) {places : List Nat}
    {nodes : List Plan}
    (h : List.Forall₂ (fun place node => session.nodes[place]? = some node)
      places nodes)
    (hnodup : places.Nodup) (hfresh : ∀ place ∈ places, place ∉ used) :
    (nodes.map (·.aliasName)).Nodup := by
  induction h with
  | nil => simp
  | @cons place node places nodes hplace hrest ih =>
      rw [List.nodup_cons] at hnodup
      rw [List.map_cons, List.nodup_cons]
      refine ⟨?_, ih hnodup.2 fun q hq => hfresh q (List.mem_cons_of_mem _ hq)⟩
      intro hmem
      obtain ⟨other, hother, halias⟩ := List.mem_map.mp hmem
      obtain ⟨q, hq, hget⟩ := forall₂_exists_left hrest hother
      have heq : q = place :=
        hsound.apart q place other node hget hplace
          (hfresh q (List.mem_cons_of_mem _ hq)) (hfresh place List.mem_cons_self)
          halias
      exact hnodup.1 (heq ▸ hq)

/-- One more node, whose alias no unused node has. -/
theorem push (hsound : session.Sound used) {supply : AliasSupply} {node : Plan}
    (hle : session.supply.subqueries ≤ supply.subqueries)
    (hscoped : node.WellScoped)
    (hissued : ∃ n < supply.subqueries, node.aliasName = AliasSupply.subqueryAlias n)
    (hnew : ∀ i a, session.nodes[i]? = some a → i ∉ used →
      a.aliasName ≠ node.aliasName) :
    Sound ⟨supply, session.nodes ++ [node]⟩ used := by
  have hcases : ∀ i a, (session.nodes ++ [node])[i]? = some a →
      session.nodes[i]? = some a ∨ i = session.nodes.length ∧ a = node := by
    intro i a h
    rw [List.getElem?_append] at h
    split at h
    next => exact .inl h
    next hlt =>
      rw [List.getElem?_singleton] at h
      split at h
      next hzero =>
        cases h
        exact .inr ⟨by omega, rfl⟩
      next => cases h
  constructor
  · intro other hother
    rcases List.mem_append.mp hother with hother | hother
    · exact hsound.wellScoped other hother
    · rwa [List.mem_singleton.mp hother]
  · intro other hother
    rcases List.mem_append.mp hother with hother | hother
    · obtain ⟨n, hn, halias⟩ := hsound.issued other hother
      exact ⟨n, Nat.lt_of_lt_of_le hn hle, halias⟩
    · rwa [List.mem_singleton.mp hother]
  · intro i j a b hi hj hiu hju heq
    rcases hcases i a hi with hold | ⟨rfl, rfl⟩
    · rcases hcases j b hj with hold' | ⟨rfl, rfl⟩
      · exact hsound.apart i j a b hold hold' hiu hju heq
      · exact absurd heq (hnew i a hold hiu)
    · rcases hcases j b hj with hold' | ⟨rfl, rfl⟩
      · exact absurd heq.symm (hnew j b hold' hju)
      · rfl

/-- A node under the next alias of the supply is new in any case. -/
theorem push_next (hsound : session.Sound used) {supply : AliasSupply} {node : Plan}
    (hscoped : node.WellScoped)
    (hnext : supply.subqueries = session.supply.subqueries + 1)
    (halias : node.aliasName =
      AliasSupply.subqueryAlias session.supply.subqueries) :
    Sound ⟨supply, session.nodes ++ [node]⟩ used := by
  refine hsound.push (by omega) hscoped ⟨_, by omega, halias⟩ ?_
  intro i a hi _ heq
  obtain ⟨n, hn, hother⟩ := hsound.issued a (List.mem_of_getElem? hi)
  have := AliasSupply.subqueryAlias_injective (hother.symm.trans (heq.trans halias))
  omega

/-- One call keeps a session sound if its nodes have not been used before. -/
theorem step (hsound : session.Sound used) {call : PlannerCall}
    (hnodup : (used ++ call.uses).Nodup) :
    (session.step call).Sound (used ++ call.uses) := by
  have hmore := hsound.mono (List.subset_append_left used call.uses)
  rcases step_cases session call with ⟨hnodes, hsupply⟩ | ⟨node, hnodes, hanswer⟩
  · refine ⟨?_, ?_, ?_⟩
    · rw [hnodes]
      exact hmore.wellScoped
    · rw [hnodes, hsupply]
      exact hmore.issued
    · rw [hnodes]
      exact hmore.apart
  · have hstep : session.step call =
        ⟨(session.step call).supply, session.nodes ++ [node]⟩ := by
      rw [← hnodes]
    rw [hstep]
    rcases answer?_eq_ok hanswer with ⟨model, elements, -, hread⟩ |
        ⟨place, calls, primary, targets, rfl, hplaces, hjoin⟩ |
        ⟨place, keys, measures, input, -, hinput, haggregate⟩ |
        ⟨place, terms, input, -, hinput, hmetrics⟩
    · obtain ⟨-, columns, -, rfl, hnext⟩ := Model.read_eq_ok.mp hread
      exact hmore.push_next (Model.read_wellScoped hread) (by rw [hnext]) rfl
    · have hfresh : ∀ q ∈ (PlannerCall.join place calls).uses, q ∉ used := by
        intro q hq hused
        exact (List.nodup_append.mp hnodup).2.2 q hused q hq rfl
      have haliases := hsound.nodup_aliases hplaces
        (List.nodup_append.mp hnodup).2.1 hfresh
      have hwell : ∀ plan ∈ primary :: targets.map (·.node), plan.WellScoped := by
        intro plan hplan
        obtain ⟨q, -, hq⟩ := forall₂_exists_left hplaces hplan
        exact hsound.wellScoped_of_getElem? hq
      have hscoped : node.WellScoped :=
        Plan.joinTargets_wellScoped (hwell primary List.mem_cons_self)
          (fun t ht => hwell t.node
            (List.mem_cons_of_mem _ (List.mem_map_of_mem ht))) haliases hjoin
      rcases Plan.joinTargets_eq_ok hjoin with
        ⟨rfl, rfl, hsame⟩ | ⟨joined, -, -, -, rfl, hnext⟩
      · -- without targets the same node comes back, and its old place is used up
        have hget : session.nodes[place]? = some node :=
          (List.forall₂_cons.mp hplaces).1
        obtain ⟨n, hn, halias⟩ := hsound.issued node (List.mem_of_getElem? hget)
        refine hmore.push (by rw [hsame]) hscoped ⟨n, by rw [hsame]; exact hn, halias⟩ ?_
        intro i a hi hiu heq
        have hplace : place ∉ used := hfresh place List.mem_cons_self
        have heq := hsound.apart i place a node hi hget
          (fun h => hiu (List.mem_append_left _ h)) hplace heq
        exact hiu (List.mem_append_right _ (heq ▸ List.mem_cons_self))
      · exact hmore.push_next hscoped (by rw [hnext]) rfl
    · have hwell := hsound.wellScoped_of_getElem? hinput
      have hscoped := Plan.aggregateBy_wellScoped hwell haggregate
      obtain ⟨columns, -, rfl, hnext⟩ := Plan.aggregateBy_eq_ok haggregate
      exact hmore.push_next hscoped (by rw [hnext]) rfl
    · have hwell := hsound.wellScoped_of_getElem? hinput
      have hscoped := Plan.computeMetrics_wellScoped hwell hmetrics
      obtain ⟨keys, columns, -, rfl, hnext⟩ := Plan.computeMetrics_eq_ok hmetrics
      exact hmore.push_next hscoped (by rw [hnext]) rfl

theorem foldl_step (hsound : session.Sound used) {calls : List PlannerCall}
    (hnodup : (used ++ calls.flatMap PlannerCall.uses).Nodup) :
    (calls.foldl Session.step session).Sound
      (used ++ calls.flatMap PlannerCall.uses) := by
  induction calls generalizing session used with
  | nil => simpa using hsound
  | cons call rest ih =>
      rw [List.flatMap_cons, ← List.append_assoc] at hnodup ⊢
      rw [List.foldl_cons]
      exact ih (hsound.step (List.nodup_append.mp hnodup).1) hnodup

end Sound

/-- Whatever calls have been made and whichever of them failed, all nodes are
well scoped if no node has gone into two calls. -/
theorem run_wellScoped {calls : List PlannerCall} (honce : UsedOnce calls) :
    ∀ node ∈ (run calls).nodes, node.WellScoped := by
  have hsound : (run calls).Sound ([] ++ calls.flatMap PlannerCall.uses) :=
    sound_initial.foldl_step (by simpa [UsedOnce] using honce)
  exact hsound.wellScoped

end Session

theorem Sample.calls_wellScoped :
    UsedOnce calls ∧ (Session.run calls).nodes.length = 5 ∧
      ∀ node ∈ (Session.run calls).nodes, node.WellScoped := by
  refine ⟨usedOnce_calls, ?_, Session.run_wellScoped usedOnce_calls⟩
  decide +kernel

end MetricSql
