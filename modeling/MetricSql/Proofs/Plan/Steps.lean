import MetricSql.Plan.Build
import Mathlib.Tactic

/-!
# What a planner call can do

Each planner either fails or returns one stage.  The inversion lemmas below say
once what a successful call has checked and what the stage it returns looks
like; everything that is proved about plans starts from them.
-/

namespace MetricSql

/-! ## Computations that may fail -/

theorem bind_eq_ok {ε α β : Type} {x : Except ε α} {f : α → Except ε β}
    {b : β} :
    (x >>= f) = .ok b ↔ ∃ a, x = .ok a ∧ f a = .ok b := by
  cases x <;> simp [bind, Except.bind]

theorem mapM_eq_ok {ε α β : Type} {f : α → Except ε β} {xs : List α}
    {ys : List β} :
    xs.mapM f = .ok ys ↔ List.Forall₂ (fun x y => f x = .ok y) xs ys := by
  induction xs generalizing ys with
  | nil =>
      simp only [List.mapM_nil, List.forall₂_nil_left_iff]
      constructor
      · rintro ⟨⟩
        rfl
      · rintro rfl
        rfl
  | cons x xs ih =>
      simp only [List.mapM_cons, bind_eq_ok, ih, List.forall₂_cons_left_iff]
      constructor
      · rintro ⟨y, hy, ys, hys, ⟨⟩⟩
        exact ⟨y, ys, hy, hys, rfl⟩
      · rintro ⟨y, ys, hy, hys, rfl⟩
        exact ⟨y, hy, ys, hys, rfl⟩

theorem forall₂_exists_left {α β : Type} {R : α → β → Prop} {xs : List α}
    {ys : List β} (h : List.Forall₂ R xs ys) {y : β} (hy : y ∈ ys) :
    ∃ x ∈ xs, R x y := by
  induction h with
  | nil => cases hy
  | cons hxy _ ih =>
      rcases List.mem_cons.mp hy with rfl | hy
      · exact ⟨_, List.mem_cons_self, hxy⟩
      · obtain ⟨x, hx, hR⟩ := ih hy
        exact ⟨x, List.mem_cons_of_mem _ hx, hR⟩

/-- A property of the items done so far and the state reached, kept by every step,
holds of all items and the last state. -/
theorem foldlM_induction {ε α σ : Type} {f : σ → α → Except ε σ}
    {P : List α → σ → Prop}
    (hstep : ∀ {done s x s'}, P done s → f s x = .ok s' → P (done ++ [x]) s')
    {xs : List α} {s s' : σ} (hs : P [] s) (h : xs.foldlM f s = .ok s') : P xs s' := by
  have hall : ∀ done, P done s → P (done ++ xs) s' := by
    clear hs
    induction xs generalizing s with
    | nil =>
        intro done hdone
        cases h
        simpa using hdone
    | cons x rest ih =>
        intro done hdone
        rw [List.foldlM_cons, bind_eq_ok] at h
        obtain ⟨middle, hx, hrest⟩ := h
        have hmiddle := ih hrest (done ++ [x]) (hstep hdone hx)
        simpa using hmiddle
  exact hall [] hs

theorem ensureUnique_eq_ok {stage : Stage} {columns : List Column} :
    ensureUnique stage columns = .ok () ↔ (columns.map (·.name)).Nodup := by
  have hiff := firstRepeated?_eq_none_iff [] (columns.map (·.name))
  unfold ensureUnique
  cases hfirst : firstRepeated? [] (columns.map (·.name)) with
  | none =>
      rw [hfirst] at hiff
      simpa using hiff
  | some name =>
      rw [hfirst] at hiff
      simpa using hiff

/-! ## Reading -/

theorem Model.bindElement_eq_ok {model : Model} {tableAlias : String}
    {ref : ElementRef} {column : Column} :
    model.bindElement tableAlias ref = .ok column ↔
      ∃ element, model.element? ref.name = some element ∧
        checkGrain? element ref = .ok () ∧
        column = elementColumn tableAlias ref element := by
  unfold Model.bindElement
  cases helement : model.element? ref.name with
  | none => simp
  | some element =>
      simp only [bind_eq_ok, Option.some.injEq]
      constructor
      · rintro ⟨⟨⟩, hgrain, ⟨⟩⟩
        exact ⟨element, rfl, hgrain, rfl⟩
      · rintro ⟨_, rfl, hgrain, rfl⟩
        exact ⟨(), hgrain, rfl⟩

/-- Only a dimension can be truncated. -/
theorem Model.dimension_of_checkGrain? {element : Element} {ref : ElementRef}
    {grain : Grain} (hcheck : checkGrain? element ref = .ok ())
    (hgrain : ref.grain = some grain) :
    ∃ dimension, element = .dimension dimension := by
  unfold checkGrain? at hcheck
  rw [hgrain] at hcheck
  cases element with
  | dimension dimension => exact ⟨dimension, rfl⟩
  | entity entity => simp [checkGrain] at hcheck
  | measure measure => simp [checkGrain] at hcheck

theorem Model.elementColumn_name {tableAlias : String} {ref : ElementRef}
    {element : Element} (hcheck : checkGrain? element ref = .ok ()) :
    (elementColumn tableAlias ref element).name = ref.columnName := by
  cases hgrain : ref.grain with
  | none =>
      have hname : ref.columnName = ref.name := by
        simp [ElementRef.columnName, hgrain]
      cases element <;> simp [elementColumn, hgrain, hname]
  | some grain =>
      obtain ⟨dimension, rfl⟩ := dimension_of_checkGrain? hcheck hgrain
      simp [elementColumn, hgrain]

theorem Model.bindElement_name {model : Model} {tableAlias : String}
    {ref : ElementRef} {column : Column}
    (h : model.bindElement tableAlias ref = .ok column) :
    column.name = ref.columnName := by
  obtain ⟨element, -, hcheck, rfl⟩ := bindElement_eq_ok.mp h
  exact elementColumn_name hcheck

theorem Model.bindAll_eq_ok {model : Model} {tableAlias : String}
    {elements : List ElementRef} {columns : List Column} :
    model.bindAll tableAlias elements = .ok columns ↔
      List.Forall₂ (fun ref column => model.bindElement tableAlias ref = .ok column)
          elements columns ∧
        (columns.map (·.name)).Nodup := by
  simp only [Model.bindAll, bind_eq_ok, mapM_eq_ok]
  constructor
  · rintro ⟨_, hbind, ⟨⟩, hunique, ⟨⟩⟩
    exact ⟨hbind, ensureUnique_eq_ok.mp hunique⟩
  · rintro ⟨hbind, hunique⟩
    exact ⟨columns, hbind, (), ensureUnique_eq_ok.mpr hunique, rfl⟩

/-- A successful read selects exactly the elements, in order. -/
theorem Model.read_eq_ok {model : Model} {elements : List ElementRef}
    {supply supply' : AliasSupply} {node : Plan} :
    model.read elements supply = (.ok node, supply') ↔
      elements ≠ [] ∧
      ∃ columns,
        model.bindAll (AliasSupply.tableAlias model.name supply.tables) elements =
            .ok columns ∧
          node = .read (AliasSupply.subqueryAlias supply.subqueries) model.name
            model.table (AliasSupply.tableAlias model.name supply.tables) columns ∧
          supply' = ⟨supply.subqueries + 1, supply.tables + 1⟩ := by
  unfold Model.read
  cases elements with
  | nil => simp
  | cons element elements =>
      simp only [List.isEmpty_cons, Bool.false_eq_true, if_false,
        AliasSupply.table, AliasSupply.subquery]
      cases hbind : model.bindAll
          (AliasSupply.tableAlias model.name supply.tables) (element :: elements) with
      | error failure => simp
      | ok columns =>
          simp only [Prod.mk.injEq, Except.ok.injEq]
          constructor
          · rintro ⟨rfl, rfl⟩
            exact ⟨by simp, columns, rfl, rfl, rfl⟩
          · rintro ⟨-, _, rfl, rfl, rfl⟩
            exact ⟨rfl, rfl⟩

theorem Model.read_eq_error {model : Model} {elements : List ElementRef}
    {supply supply' : AliasSupply} {failure : Failure}
    (h : model.read elements supply = (.error failure, supply')) :
    supply'.subqueries = supply.subqueries := by
  unfold Model.read at h
  split at h
  next =>
    cases h
    rfl
  next =>
    simp only [AliasSupply.table, AliasSupply.subquery] at h
    split at h
    next =>
      cases h
      rfl
    next => cases h

/-! ## Joining -/

namespace JoinTarget

/-- The columns that a target adds to the left side. -/
def gains (target : JoinTarget) : List LeftColumn :=
  target.contributed.map (.ofColumn target.node.aliasName target.rename)

theorem contribute_eq_ok {target : JoinTarget} {left left' : List LeftColumn}
    {columns : List Column} (h : target.contribute left columns = .ok left') :
    left' = left ++
      columns.map (.ofColumn target.node.aliasName target.rename) := by
  induction columns generalizing left with
  | nil =>
      cases h
      simp
  | cons column rest ih =>
      simp only [contribute] at h
      split at h
      next => cases h
      next =>
        rw [ih h]
        simp

/-- A key names a column of the left side and one of the target. -/
theorem matchKey_eq_ok {primary : String} {left : List LeftColumn}
    {target : JoinTarget} {key : String} {found : KeyMatch}
    (h : target.matchKey primary left key = .ok found) :
    ∃ l r, LeftColumn.find? left key = some l ∧
      target.node.column? key = some r ∧
      found = ⟨key, l.aliasName, l.column, key⟩ := by
  unfold matchKey at h
  split at h
  next => cases h
  next l hleft =>
    split at h
    next => cases h
    next r hright =>
      refine ⟨l, r, hleft, hright, ?_⟩
      split at h
      next =>
        split at h
        next =>
          cases h
          rfl
        next => cases h
      next =>
        cases h
        rfl

theorem requireColumn_eq_ok {target : JoinTarget} {name : String} :
    target.requireColumn name = .ok () ↔
      ∃ column, target.node.column? name = some column := by
  unfold requireColumn
  cases target.node.column? name <;> simp

theorem matchWindow_eq_ok {primary : String} {left : List LeftColumn}
    {target : JoinTarget} {found : Option WindowMatch}
    (h : target.matchWindow primary left = .ok found) :
    (target.window = none ∧ found = none) ∨
      ∃ window time start stop, target.window = some window ∧
        LeftColumn.find? left window.time = some time ∧
        target.node.column? window.start = some start ∧
        target.node.column? window.stop = some stop ∧
        found = some ⟨time.aliasName, time.column, window.start, window.stop⟩ := by
  unfold matchWindow at h
  split at h
  next hnone =>
    cases h
    exact .inl ⟨hnone, rfl⟩
  next window hwindow =>
    split at h
    next => cases h
    next time htime =>
      simp only [bind_eq_ok] at h
      obtain ⟨⟨⟩, hstart, ⟨⟩, hstop, ⟨⟩⟩ := h
      obtain ⟨start, hstart⟩ := requireColumn_eq_ok.mp hstart
      obtain ⟨stop, hstop⟩ := requireColumn_eq_ok.mp hstop
      exact .inr ⟨window, time, start, stop, hwindow, htime, hstart, hstop, rfl⟩

/-- A target that is attached has keys and a window on columns that exist, and
its other columns go to the end of the left side. -/
theorem attach_eq_ok {primary : String} {left left' : List LeftColumn}
    {target : JoinTarget} {joined : Joined Plan}
    (h : target.attach primary left = .ok (left', joined)) :
    target.keys ≠ [] ∧
      ∃ keys window,
        List.Forall₂ (fun key found => target.matchKey primary left key = .ok found)
            target.keys keys ∧
          target.matchWindow primary left = .ok window ∧
          left' = left ++ target.gains ∧
          joined = ⟨target.node, target.role.kind, keys, window, target.qualifier⟩ := by
  unfold attach at h
  cases hkeys : target.keys with
  | nil =>
      rw [hkeys] at h
      cases h
  | cons key rest =>
      simp only [hkeys, List.isEmpty_cons, Bool.false_eq_true, if_false,
        bind_eq_ok, mapM_eq_ok] at h
      obtain ⟨keys, hmatch, window, hwindow, _, hleft, ⟨⟩⟩ := h
      exact ⟨by simp, keys, window, hmatch, hwindow, contribute_eq_ok hleft, rfl⟩

theorem attachAll_cons_eq_ok {primary : String} {left left' : List LeftColumn}
    {target : JoinTarget} {rest : List JoinTarget} {joined : List (Joined Plan)}
    (h : attachAll primary left (target :: rest) = .ok (left', joined)) :
    ∃ first others,
      target.attach primary left = .ok (left ++ target.gains, first) ∧
        attachAll primary (left ++ target.gains) rest = .ok (left', others) ∧
        joined = first :: others := by
  simp only [attachAll, bind_eq_ok] at h
  obtain ⟨⟨middle, first⟩, hattach, ⟨_, others⟩, hrest, ⟨⟩⟩ := h
  obtain ⟨-, keys, window, -, -, rfl, -⟩ := attach_eq_ok hattach
  exact ⟨first, others, hattach, hrest, rfl⟩

theorem attachAll_left {primary : String} {left left' : List LeftColumn}
    {targets : List JoinTarget} {joined : List (Joined Plan)}
    (h : attachAll primary left targets = .ok (left', joined)) :
    left' = left ++ targets.flatMap gains := by
  induction targets generalizing left joined with
  | nil =>
      cases h
      simp
  | cons target rest ih =>
      obtain ⟨first, others, -, hrest, -⟩ := attachAll_cons_eq_ok h
      rw [ih hrest]
      simp

theorem attachAll_right {primary : String} {left left' : List LeftColumn}
    {targets : List JoinTarget} {joined : List (Joined Plan)}
    (h : attachAll primary left targets = .ok (left', joined)) :
    joined.map (·.right) = targets.map (·.node) := by
  induction targets generalizing left joined with
  | nil =>
      cases h
      rfl
  | cons target rest ih =>
      obtain ⟨first, others, hattach, hrest, rfl⟩ := attachAll_cons_eq_ok h
      obtain ⟨-, keys, window, -, -, -, rfl⟩ := attach_eq_ok hattach
      rw [List.map_cons, ih hrest, List.map_cons]

/-- A join has the primary relation and the nodes of its targets below it. -/
theorem attachAll_forall_children {primary : Plan} {left left' : List LeftColumn}
    {targets : List JoinTarget} {joined : List (Joined Plan)}
    (h : attachAll primary.aliasName left targets = .ok (left', joined)) {P : Plan → Prop}
    (hprimary : P primary) (htargets : ∀ target ∈ targets, P target.node)
    {aliasName : String} {columns : List Column} :
    ∀ child ∈ (Plan.join aliasName primary joined columns).children, P child := by
  intro child hchild
  simp only [Plan.children, attachAll_right h, List.mem_cons, List.mem_map] at hchild
  rcases hchild with rfl | ⟨target, htarget, rfl⟩
  · exact hprimary
  · exact htargets target htarget

end JoinTarget

/-- A join without targets is its primary relation; otherwise every target has
been attached and the columns have distinct names. -/
theorem Plan.joinTargets_eq_ok {primary node : Plan} {targets : List JoinTarget}
    {supply supply' : AliasSupply}
    (h : primary.joinTargets targets supply = (.ok node, supply')) :
    (targets = [] ∧ node = primary ∧ supply' = supply) ∨
      ∃ joined,
        targets ≠ [] ∧
        JoinTarget.attachAll primary.aliasName primary.leftColumns targets =
            .ok (primary.leftColumns ++ targets.flatMap JoinTarget.gains, joined) ∧
          node.columnNames.Nodup ∧
          node = .join (AliasSupply.subqueryAlias supply.subqueries) primary joined
            ((primary.leftColumns ++ targets.flatMap JoinTarget.gains).map
              LeftColumn.toColumn) ∧
          supply' = { supply with subqueries := supply.subqueries + 1 } := by
  unfold Plan.joinTargets at h
  cases targets with
  | nil =>
      cases h
      exact .inl ⟨rfl, rfl, rfl⟩
  | cons target rest =>
      simp only [List.isEmpty_cons, Bool.false_eq_true, if_false] at h
      split at h
      next => cases h
      next hparts =>
        cases h
        simp only [Plan.joinParts, bind_eq_ok] at hparts
        obtain ⟨⟨left, joined⟩, hattach, ⟨⟩, hunique, ⟨⟩⟩ := hparts
        have hleft := JoinTarget.attachAll_left hattach
        subst hleft
        exact .inr ⟨joined, by simp, hattach, ensureUnique_eq_ok.mp hunique, rfl, rfl⟩

theorem Plan.joinTargets_eq_error {primary : Plan} {targets : List JoinTarget}
    {supply supply' : AliasSupply} {failure : Failure}
    (h : primary.joinTargets targets supply = (.error failure, supply')) :
    supply' = supply := by
  unfold Plan.joinTargets at h
  split at h
  next => cases h
  next =>
    split at h
    next =>
      cases h
      rfl
    next => cases h

/-! ## Aggregating -/

theorem Plan.keyColumn_eq_ok {input : Plan} {key : String} {column : Column}
    (h : input.keyColumn key = .ok column) :
    ∃ source, input.column? key = some source ∧
      source.role.isGroupable ∧ column = source.through input.aliasName := by
  unfold Plan.keyColumn at h
  split at h
  next source hsource =>
    split at h
    next hrole =>
      cases h
      exact ⟨source, hsource, hrole, rfl⟩
    next => cases h
  next => cases h

theorem Plan.measureColumn_eq_ok {input : Plan} {term : MeasureTerm}
    {column : Column} (h : input.measureColumn term = .ok column) :
    ∃ source expr, input.column? term.name = some source ∧
      source.role = .measure ∧
      term.expr (.of input.aliasName term.name) = .ok expr ∧
      column = ⟨term.name, expr, .measure,
        term.aggregation.resultType source.dataType⟩ := by
  unfold Plan.measureColumn at h
  split at h
  next source hsource =>
    simp only [bind_eq_ok] at h
    obtain ⟨expr, hexpr, ⟨⟩⟩ := h
    obtain ⟨hfound, hrole⟩ := Option.filter_eq_some_iff.mp hsource
    exact ⟨source, expr, hfound, by simpa using hrole, hexpr, rfl⟩
  next => cases h

theorem Plan.aggregateColumns_eq_ok {input : Plan} {keys : GroupKeys}
    {measures : List MeasureTerm} {columns : List Column}
    (h : input.aggregateColumns keys measures = .ok columns) :
    (keys.names ≠ [] ∨ measures ≠ []) ∧
      ∃ keyColumns measureColumns,
        List.Forall₂ (fun key column => input.keyColumn key = .ok column)
            keys.names keyColumns ∧
          List.Forall₂ (fun term column => input.measureColumn term = .ok column)
            measures measureColumns ∧
          columns = keyColumns ++ measureColumns ∧
          (columns.map (·.name)).Nodup := by
  unfold Plan.aggregateColumns at h
  split at h
  next => cases h
  next hsome =>
    simp only [bind_eq_ok, mapM_eq_ok] at h
    obtain ⟨keyColumns, hkeys, measureColumns, hmeasures, ⟨⟩, hunique, ⟨⟩⟩ := h
    refine ⟨?_, keyColumns, measureColumns, hkeys, hmeasures, rfl,
      ensureUnique_eq_ok.mp hunique⟩
    simpa [or_iff_not_imp_left] using hsome

theorem Plan.aggregateBy_eq_ok {input node : Plan} {keys : GroupKeys}
    {measures : List MeasureTerm} {supply supply' : AliasSupply}
    (h : input.aggregateBy keys measures supply = (.ok node, supply')) :
    ∃ columns,
      input.aggregateColumns keys measures = .ok columns ∧
        node = .aggregate (AliasSupply.subqueryAlias supply.subqueries) input keys
          measures columns ∧
        supply' = { supply with subqueries := supply.subqueries + 1 } := by
  unfold Plan.aggregateBy at h
  split at h
  next => cases h
  next columns hcolumns =>
    cases h
    exact ⟨columns, hcolumns, rfl, rfl⟩

theorem Plan.aggregateBy_eq_error {input : Plan} {keys : GroupKeys}
    {measures : List MeasureTerm} {supply supply' : AliasSupply} {failure : Failure}
    (h : input.aggregateBy keys measures supply = (.error failure, supply')) :
    supply' = supply := by
  unfold Plan.aggregateBy at h
  split at h
  next =>
    cases h
    rfl
  next => cases h

/-! ## Computing metrics -/

theorem Plan.metricColumn_eq_ok {input : Plan} {term : MetricTerm}
    {column : Column} (h : input.metricColumn term = .ok column) :
    ∃ expr dataType, term.formula.compile input term.name = .ok (expr, dataType) ∧
      column = ⟨term.name, expr, .metric, dataType⟩ := by
  simp only [Plan.metricColumn, bind_eq_ok] at h
  obtain ⟨⟨expr, dataType⟩, hcompile, ⟨⟩⟩ := h
  exact ⟨expr, dataType, hcompile, rfl⟩

theorem Plan.metricParts_eq_ok {input : Plan} {terms : List MetricTerm}
    {keys : GroupKeys} {columns : List Column}
    (h : input.metricParts terms = .ok (keys, columns)) :
    input.groupKeys? = some keys ∧ terms ≠ [] ∧
      ∃ metricColumns,
        List.Forall₂ (fun term column => input.metricColumn term = .ok column)
            terms metricColumns ∧
          columns = (keys.names.filterMap input.column?).map
            (·.through input.aliasName) ++ metricColumns ∧
          (columns.map (·.name)).Nodup := by
  unfold Plan.metricParts at h
  split at h
  next => cases h
  next found hkeys =>
    cases terms with
    | nil => cases h
    | cons term rest =>
        simp only [List.isEmpty_cons, Bool.false_eq_true, if_false,
          bind_eq_ok, mapM_eq_ok] at h
        obtain ⟨metricColumns, hmetrics, ⟨⟩, hunique, ⟨⟩⟩ := h
        exact ⟨hkeys, by simp, metricColumns, hmetrics, rfl,
          ensureUnique_eq_ok.mp hunique⟩

theorem Plan.computeMetrics_eq_ok {input node : Plan} {terms : List MetricTerm}
    {supply supply' : AliasSupply}
    (h : input.computeMetrics terms supply = (.ok node, supply')) :
    ∃ keys columns,
      input.metricParts terms = .ok (keys, columns) ∧
        node = .metrics (AliasSupply.subqueryAlias supply.subqueries) input keys
          terms columns ∧
        supply' = { supply with subqueries := supply.subqueries + 1 } := by
  unfold Plan.computeMetrics at h
  split at h
  next => cases h
  next keys columns hparts =>
    cases h
    exact ⟨keys, columns, hparts, rfl, rfl⟩

theorem Plan.computeMetrics_eq_error {input : Plan} {terms : List MetricTerm}
    {supply supply' : AliasSupply} {failure : Failure}
    (h : input.computeMetrics terms supply = (.error failure, supply')) :
    supply' = supply := by
  unfold Plan.computeMetrics at h
  split at h
  next =>
    cases h
    rfl
  next => cases h

end MetricSql
