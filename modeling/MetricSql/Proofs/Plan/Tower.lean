import MetricSql.Proofs.Plan.Alike

/-!
# Metrics over metrics

A stage that computes metrics can stand on an aggregation or on another such stage, so that towers
of them can be built.  The group keys of the aggregation go through the whole tower: every stage
finds all of them in the stage below it.  The values of a stage do not, since a formula sees the
stage directly below it and nothing else.

What is wrong with a formula is found from left to right.  `FailsWith` says of a computation which
failure it ends with, and follows the steps of the computation.
-/

namespace MetricSql

/-! ## The first failure -/

/-- The computation fails with the failure if there is one, and else it succeeds. -/
def FailsWith {ε α : Type} (x : Except ε α) (failure : Option ε) : Prop :=
  ∀ e, x = .error e ↔ failure = some e

section FailsWith

variable {ε α β : Type} {x : Except ε α} {failure : Option ε}

theorem failsWith_ok (a : α) : FailsWith (.ok a : Except ε α) none := by
  intro e
  simp

theorem failsWith_error (e : ε) : FailsWith (.error e : Except ε α) (some e) := by
  intro e'
  simp

theorem FailsWith.eq_none_iff (h : FailsWith x failure) :
    failure = none ↔ ∃ a, x = .ok a := by
  cases x with
  | ok a =>
      cases failure with
      | none => simp
      | some e => cases (h e).mpr rfl
  | error e =>
      rw [(h e).mp rfl]
      simp

/-- A second step is reached only if the first one succeeds. -/
theorem FailsWith.bind
    {f : α → Except ε β} {second : Option ε} (h : FailsWith x failure)
    (hsecond : ∀ a, FailsWith (f a) second) : FailsWith (x >>= f) (failure.or second) := by
  intro e
  rw [bind_eq_error, Option.or_eq_some_iff, h e, h.eq_none_iff]
  constructor
  · rintro (hfirst | ⟨a, ha, he⟩)
    · exact .inl hfirst
    · exact .inr ⟨⟨a, ha⟩, (hsecond a e).mp he⟩
  · rintro (hfirst | ⟨⟨a, ha⟩, he⟩)
    · exact .inl hfirst
    · exact .inr ⟨a, ha, (hsecond a e).mpr he⟩

theorem FailsWith.followedBy
    {f : α → Except ε β} (h : FailsWith x failure) (hok : ∀ a, FailsWith (f a) none) :
    FailsWith (x >>= f) failure := by
  have hbind := h.bind hok
  rw [Option.or_none] at hbind
  exact hbind

theorem failsWith_mapM
    {γ : Type} {f : α → Except ε β} {parts : α → List γ} {check : γ → Option ε}
    (h : ∀ a, FailsWith (f a) ((parts a).findSome? check)) (xs : List α) :
    FailsWith (xs.mapM f) ((xs.flatMap parts).findSome? check) := by
  induction xs with
  | nil => exact failsWith_ok []
  | cons first rest ih =>
      rw [List.mapM_cons, List.flatMap_cons, List.findSome?_append]
      apply (h first).bind
      intro b
      exact ih.followedBy fun bs => failsWith_ok _

end FailsWith

/-! ## What a formula needs -/

/-- The inputs and the literals from left to right. -/
def Formula.atoms : Formula → List Formula
  | input name => [input name]
  | literal value => [literal value]
  | neg operand => operand.atoms
  | binary _ left right => left.atoms ++ right.atoms
  | ratio numerator denominator => numerator.atoms ++ denominator.atoms

/-- The inputs and the literals of the metric, with its name. -/
def MetricTerm.atoms (term : MetricTerm) : List (String × Formula) :=
  term.formula.atoms.map fun atom => (term.name, atom)

namespace Plan

/-- The stage has a measure or a metric of the name. -/
def Offers (stage : Plan) (name : String) : Prop :=
  ∃ column ∈ stage.columns, column.name = name ∧
    (column.role = .measure ∨ column.role = .metric)

instance (stage : Plan) (name : String) : Decidable (stage.Offers name) :=
  inferInstanceAs (Decidable (∃ column ∈ stage.columns, _))

/-- The failure that an input or a literal of a metric leads to. -/
def refusal? (stage : Plan) : String × Formula → Option Failure
  | (metric, .input name) =>
    if stage.Offers name then none else some (.unresolvedMetricInput metric name)
  | (metric, .literal value) =>
    if Decimal.isFinite value then none else some (.nonFiniteLiteral metric)
  | _ => none

variable {stage : Plan} {name : String}

theorem offers_iff_column? (hnodup : stage.columnNames.Nodup) :
    stage.Offers name ↔
      ∃ column, stage.column? name = some column ∧
        (column.role = .measure ∨ column.role = .metric) := by
  constructor
  · rintro ⟨column, hcolumn, rfl, hrole⟩
    exact ⟨column, column?_of_mem hnodup hcolumn, hrole⟩
  · rintro ⟨column, hcolumn, hrole⟩
    obtain ⟨hmem, hname⟩ := column?_mem hcolumn
    exact ⟨column, hmem, hname, hrole⟩

theorem compile_input_failsWith (hnodup : stage.columnNames.Nodup) (metric : String) :
    FailsWith ((Formula.input name).compile stage metric)
      (stage.refusal? (metric, .input name)) := by
  rw [refusal?, Formula.compile]
  by_cases hoffers : stage.Offers name
  · obtain ⟨column, hcolumn, hrole⟩ := (offers_iff_column? hnodup).mp hoffers
    have hfound : (stage.column? name).filter
        (fun column => column.role = .measure || column.role = .metric) = some column := by
      rw [hcolumn, Option.filter_some, if_pos (by simpa using hrole)]
    rw [if_pos hoffers, hfound]
    exact failsWith_ok _
  · have hnone : (stage.column? name).filter
        (fun column => column.role = .measure || column.role = .metric) = none := by
      rw [Option.filter_eq_none_iff]
      intro column hcolumn hrole
      exact hoffers ((offers_iff_column? hnodup).mpr ⟨column, hcolumn, by simpa using hrole⟩)
    rw [if_neg hoffers, hnone]
    exact failsWith_error _

theorem compile_literal_failsWith (value : Float) (metric : String) :
    FailsWith ((Formula.literal value).compile stage metric)
      (stage.refusal? (metric, .literal value)) := by
  rw [refusal?, Formula.compile]
  by_cases hfinite : Decimal.isFinite value = true
  · rw [if_pos hfinite, if_pos hfinite]
    exact failsWith_ok _
  · rw [if_neg hfinite, if_neg hfinite]
    exact failsWith_error _

/-- A formula fails where the first of its inputs and literals does. -/
theorem compile_failsWith
    (hnodup : stage.columnNames.Nodup) (metric : String) (formula : Formula) :
    FailsWith (formula.compile stage metric)
      ((formula.atoms.map fun atom => (metric, atom)).findSome? stage.refusal?) := by
  induction formula with
  | input name =>
      rw [Formula.atoms, List.map_singleton, List.findSome?_singleton]
      exact compile_input_failsWith hnodup metric
  | literal value =>
      rw [Formula.atoms, List.map_singleton, List.findSome?_singleton]
      exact compile_literal_failsWith value metric
  | neg operand ih =>
      rw [Formula.atoms, Formula.compile]
      exact ih.followedBy fun found => failsWith_ok _
  | binary operator left right ihleft ihright =>
      rw [Formula.atoms, Formula.compile, List.map_append, List.findSome?_append]
      apply ihleft.bind
      intro found
      exact ihright.followedBy fun other => failsWith_ok _
  | ratio numerator denominator ihnumerator ihdenominator =>
      rw [Formula.atoms, Formula.compile, List.map_append, List.findSome?_append]
      apply ihnumerator.bind
      intro found
      exact ihdenominator.followedBy fun other => failsWith_ok _

theorem metricColumns_failsWith
    (hnodup : stage.columnNames.Nodup) (terms : List MetricTerm) :
    FailsWith (terms.mapM stage.metricColumn)
      ((terms.flatMap MetricTerm.atoms).findSome? stage.refusal?) := by
  apply failsWith_mapM
  intro term
  rw [metricColumn, MetricTerm.atoms]
  exact (compile_failsWith hnodup term.name term.formula).followedBy fun found => failsWith_ok _

/-! ## Towers -/

/-- The measures or the metrics that a stage computes. -/
def values : Plan → List String
  | aggregate _ _ _ measures _ => measures.map (·.name)
  | metrics _ _ _ terms _ => terms.map (·.name)
  | _ => []

/-- The stage has the keys and then its values.  A key has the role and the type that it has in the
input of the aggregation. -/
structure Carries (input : Plan) (keys : GroupKeys) (stage : Plan) : Prop where
  keys_eq : stage.groupKeys? = some keys
  names_eq : stage.columnNames = keys.names ++ stage.values
  nodup : stage.columnNames.Nodup
  key_column : ∀ key ∈ keys.names, ∃ source column, input.column? key = some source ∧
    source.role.isGroupable ∧ stage.column? key = some column ∧
    column.role = source.role ∧ column.dataType = source.dataType
  value_column : ∀ name ∈ stage.values, stage.Offers name

/-- Stages that are reached from `base` by computing metrics again and again. -/
inductive Tower (base : Plan) : Plan → Prop
  | base : Tower base base
  | stage {below node : Plan} {terms : List MetricTerm} {supply supply' : AliasSupply}
      (hbelow : Tower base below)
      (h : below.computeMetrics terms supply = (.ok node, supply')) : Tower base node

variable {input base below node : Plan} {keys : GroupKeys} {measures : List MeasureTerm}
  {terms : List MetricTerm} {supply supply' : AliasSupply}

theorem aggregateBy_carries
    (h : input.aggregateBy keys measures supply = (.ok node, supply')) :
    input.Carries keys node := by
  obtain ⟨hnames, hnodup⟩ := aggregateBy_columnNames h
  obtain ⟨columns, hcolumns, rfl, -⟩ := aggregateBy_eq_ok h
  obtain ⟨-, keyColumns, measureColumns, hkeys, hmeasures, rfl, -⟩ :=
    aggregateColumns_eq_ok hcolumns
  refine ⟨rfl, hnames, hnodup, ?_, ?_⟩
  · intro key hkey
    obtain ⟨column, hcolumn, hok⟩ := forall₂_exists_left hkeys.flip hkey
    have hname := keyColumn_name hok
    obtain ⟨source, hsource, hrole, rfl⟩ := keyColumn_eq_ok hok
    have hfound := column?_of_mem hnodup (List.mem_append_left measureColumns hcolumn)
    rw [hname] at hfound
    exact ⟨source, _, hsource, hrole, hfound, rfl, rfl⟩
  · intro name hname
    obtain ⟨term, hterm, rfl⟩ := List.mem_map.mp hname
    obtain ⟨column, hcolumn, hok⟩ := forall₂_exists_left hmeasures.flip hterm
    obtain ⟨source, expr, -, -, -, rfl⟩ := measureColumn_eq_ok hok
    exact ⟨_, List.mem_append_right keyColumns hcolumn, rfl, .inl rfl⟩

theorem Carries.key_mem
    (h : input.Carries keys stage) : ∀ key ∈ keys.names, key ∈ stage.columnNames := by
  intro key hkey
  rw [h.names_eq]
  exact List.mem_append_left _ hkey

/-- One more stage: the keys are found in the stage below, and the metrics follow them. -/
theorem Carries.computeMetrics
    (hbelow : input.Carries keys below)
    (h : below.computeMetrics terms supply = (.ok node, supply')) : input.Carries keys node := by
  obtain ⟨hnames, hnodup⟩ := computeMetrics_columnNames h hbelow.keys_eq hbelow.key_mem
  obtain ⟨found, columns, hparts, rfl, -⟩ := computeMetrics_eq_ok h
  obtain ⟨hfound, -, metricColumns, hmetrics, rfl, -⟩ := metricParts_eq_ok hparts
  cases hbelow.keys_eq.symm.trans hfound
  refine ⟨rfl, hnames, hnodup, ?_, ?_⟩
  · intro key hkey
    obtain ⟨source, column, hsource, hgroupable, hcolumn, hrole, htype⟩ :=
      hbelow.key_column key hkey
    have hmem : column.through below.aliasName ∈
        (keys.names.filterMap below.column?).map (·.through below.aliasName) :=
      List.mem_map_of_mem (List.mem_filterMap.mpr ⟨key, hkey, hcolumn⟩)
    have hthrough := column?_of_mem hnodup (List.mem_append_left metricColumns hmem)
    have hname : (column.through below.aliasName).name = key := (column?_mem hcolumn).2
    rw [hname] at hthrough
    exact ⟨source, _, hsource, hgroupable, hthrough, hrole, htype⟩
  · intro name hname
    obtain ⟨term, hterm, rfl⟩ := List.mem_map.mp hname
    obtain ⟨column, hcolumn, hok⟩ := forall₂_exists_left hmetrics.flip hterm
    obtain ⟨expr, dataType, -, rfl⟩ := metricColumn_eq_ok hok
    exact ⟨_, List.mem_append_right _ hcolumn, rfl, .inr rfl⟩

theorem Tower.carries
    (h : base.Tower stage) (hbase : input.Carries keys base) : input.Carries keys stage := by
  induction h with
  | base => exact hbase
  | stage hbelow hstage ih => exact ih.computeMetrics hstage

/-- A key is no value, so that exactly the values of a stage can be used above it. -/
theorem Carries.offers_iff (h : input.Carries keys stage) :
    stage.Offers name ↔ name ∈ stage.values := by
  constructor
  · intro hoffers
    obtain ⟨column, hcolumn, hrole⟩ := (offers_iff_column? h.nodup).mp hoffers
    obtain ⟨hmem, hname⟩ := column?_mem hcolumn
    have hin : name ∈ stage.columnNames := hname ▸ List.mem_map_of_mem hmem
    rw [h.names_eq, List.mem_append] at hin
    rcases hin with hkey | hvalue
    · obtain ⟨source, found, -, hgroupable, hfound, hsame, -⟩ := h.key_column name hkey
      cases hcolumn.symm.trans hfound
      rw [← hsame] at hgroupable
      rcases hrole with hrole | hrole <;> rw [hrole] at hgroupable <;> cases hgroupable
    · exact hvalue
  · exact h.value_column name

/-! ## Calls above a stage -/

/-- The metrics can be computed above the stage: it has what they use, their literals are finite,
and no metric has the name of another one or of a key. -/
structure Accepts (stage : Plan) (keys : GroupKeys) (terms : List MetricTerm) : Prop where
  nonempty : terms ≠ []
  inputs : ∀ metric name, (metric, .input name) ∈ terms.flatMap MetricTerm.atoms →
    stage.Offers name
  literals : ∀ metric value, (metric, .literal value) ∈ terms.flatMap MetricTerm.atoms →
    Decimal.isFinite value = true
  nodup : (keys.names ++ terms.map (·.name)).Nodup

theorem computeMetrics_of_parts_error
    {failure : Failure} (h : stage.metricParts terms = .error failure) (supply : AliasSupply) :
    stage.computeMetrics terms supply = (.error failure, supply) := by
  rw [computeMetrics, h]

/-- The first input or literal that is refused decides how the call fails. -/
theorem computeMetrics_of_refusal
    {failure : Failure} (hkeys : stage.groupKeys? = some keys)
    (hnodup : stage.columnNames.Nodup)
    (h : (terms.flatMap MetricTerm.atoms).findSome? stage.refusal? = some failure)
    (supply : AliasSupply) :
    stage.computeMetrics terms supply = (.error failure, supply) := by
  apply computeMetrics_of_parts_error
  have hne : terms.isEmpty = false := by
    cases terms with
    | nil => cases h
    | cons => rfl
  have hfail := (metricColumns_failsWith hnodup terms failure).mpr h
  rw [metricParts, hkeys]
  simp only [hne, Bool.false_eq_true, if_false, hfail]
  rfl

theorem refusal?_eq_none
    {atoms : List (String × Formula)}
    (hinputs : ∀ metric name, (metric, .input name) ∈ atoms → stage.Offers name)
    (hliterals : ∀ metric value, (metric, .literal value) ∈ atoms → Decimal.isFinite value) :
    ∀ atom ∈ atoms, stage.refusal? atom = none := by
  rintro ⟨metric, formula⟩ hatom
  cases formula with
  | input name => rw [refusal?, if_pos (hinputs metric name hatom)]
  | literal value => rw [refusal?, if_pos (hliterals metric value hatom)]
  | neg operand => rfl
  | binary operator left right => rfl
  | ratio numerator denominator => rfl

theorem refusal?_input_eq_none {metric : String} :
    stage.refusal? (metric, .input name) = none ↔ stage.Offers name := by
  simp [refusal?]

theorem refusal?_literal_eq_none {metric : String} {value : Float} :
    stage.refusal? (metric, .literal value) = none ↔ Decimal.isFinite value = true := by
  simp [refusal?]

theorem Carries.computeMetrics_iff (h : input.Carries keys stage) (supply : AliasSupply) :
    (∃ node supply', stage.computeMetrics terms supply = (.ok node, supply')) ↔
      stage.Accepts keys terms := by
  have hfails := metricColumns_failsWith h.nodup terms
  constructor
  · rintro ⟨node, supply', hok⟩
    obtain ⟨hnames, hnodup⟩ := computeMetrics_columnNames hok h.keys_eq h.key_mem
    obtain ⟨found, columns, hparts, -⟩ := computeMetrics_eq_ok hok
    obtain ⟨-, hne, metricColumns, hmetrics, -⟩ := metricParts_eq_ok hparts
    have hnone := hfails.eq_none_iff.mpr ⟨metricColumns, mapM_eq_ok.mpr hmetrics⟩
    rw [List.findSome?_eq_none_iff] at hnone
    refine ⟨hne, ?_, ?_, hnames ▸ hnodup⟩
    · intro metric name hatom
      exact refusal?_input_eq_none.mp (hnone _ hatom)
    · intro metric value hatom
      exact refusal?_literal_eq_none.mp (hnone _ hatom)
  · rintro ⟨hne, hinputs, hliterals, hnodup⟩
    have hnone : (terms.flatMap MetricTerm.atoms).findSome? stage.refusal? = none := by
      rw [List.findSome?_eq_none_iff]
      exact refusal?_eq_none hinputs hliterals
    obtain ⟨metricColumns, hcolumns⟩ := hfails.eq_none_iff.mp hnone
    rw [mapM_eq_ok] at hcolumns
    have hunique : (((keys.names.filterMap stage.column?).map (·.through stage.aliasName) ++
        metricColumns).map (·.name)).Nodup := by
      rw [List.map_append, List.map_map, map_name_of_forall₂ MetricTerm.name metricColumn_name
        hcolumns]
      rw [← filterMap_column?_names h.key_mem] at hnodup
      exact hnodup
    have hparts := metricParts_of_forall₂ h.keys_eq hne hcolumns hunique
    rw [Plan.computeMetrics, hparts]
    exact ⟨_, _, rfl⟩

/-- However high a tower of metric stages over an aggregation is, its stages have the keys of the
aggregation and then their own metrics.  A formula can use exactly the measures or metrics of the
stage below; the first name that is none of them is reported, unless an infinite literal or one
that is not a number stands before it. -/
theorem tower_keeps_keys
    (hbase : input.aggregateBy keys measures supply = (.ok base, supply'))
    (htower : base.Tower stage) :
    input.Carries keys stage ∧
      (∀ name, stage.Offers name ↔ name ∈ stage.values) ∧
      (∀ (terms : List MetricTerm) (start : AliasSupply),
        (∃ node rest, stage.computeMetrics terms start = (.ok node, rest)) ↔
          stage.Accepts keys terms) ∧
      (∀ (terms : List MetricTerm) (start rest : AliasSupply) (node : Plan),
        stage.computeMetrics terms start = (.ok node, rest) →
          input.Carries keys node ∧ ∃ columns,
            node = .metrics (AliasSupply.subqueryAlias start.subqueries) stage keys terms
              columns) ∧
      ∀ (terms : List MetricTerm) (start : AliasSupply) (metric name : String)
        (before after : List (String × Formula)),
        terms.flatMap MetricTerm.atoms = before ++ (metric, .input name) :: after →
        ¬ stage.Offers name →
        (∀ metric name, (metric, .input name) ∈ before → stage.Offers name) →
        ((∀ metric value, (metric, .literal value) ∈ before →
            Decimal.isFinite value = true) →
          stage.computeMetrics terms start =
            (.error (.unresolvedMetricInput metric name), start)) ∧
        ∀ (other : String) (value : Float) (first rest : List (String × Formula)),
          before = first ++ (other, .literal value) :: rest →
          Decimal.isFinite value = false →
          (∀ metric value, (metric, .literal value) ∈ first →
            Decimal.isFinite value = true) →
          stage.computeMetrics terms start = (.error (.nonFiniteLiteral other), start) := by
  have hcarries := htower.carries (aggregateBy_carries hbase)
  refine ⟨hcarries, fun name => hcarries.offers_iff,
    fun terms start => hcarries.computeMetrics_iff start, ?_, ?_⟩
  · intro terms start rest node hok
    refine ⟨hcarries.computeMetrics hok, ?_⟩
    obtain ⟨found, columns, hparts, hnode, -⟩ := computeMetrics_eq_ok hok
    obtain ⟨hfound, -⟩ := metricParts_eq_ok hparts
    cases hcarries.keys_eq.symm.trans hfound
    exact ⟨columns, hnode⟩
  · intro terms start metric name before after hatoms hnot hinputs
    constructor
    · intro hliterals
      apply computeMetrics_of_refusal hcarries.keys_eq hcarries.nodup
      rw [List.findSome?_eq_some_iff]
      refine ⟨before, (metric, .input name), after, hatoms, ?_,
        refusal?_eq_none hinputs hliterals⟩
      rw [refusal?, if_neg hnot]
    · intro other value first rest hsplit hinfinite hliterals
      apply computeMetrics_of_refusal hcarries.keys_eq hcarries.nodup
      rw [List.findSome?_eq_some_iff]
      have hfirst : ∀ metric name, (metric, .input name) ∈ first → stage.Offers name := by
        intro metric name hatom
        exact hinputs metric name (hsplit ▸ List.mem_append_left _ hatom)
      refine ⟨first, (other, .literal value), rest ++ (metric, .input name) :: after, ?_, ?_,
        refusal?_eq_none hfirst hliterals⟩
      · rw [hatoms, hsplit, List.append_assoc, List.cons_append]
      · simp [refusal?, hinfinite]

end Plan

namespace Sample

/-- Whether a planner returns a stage of which the rest holds. -/
def returns (answer : Except Failure Plan × AliasSupply) (rest : Plan → AliasSupply → Bool) :
    Bool :=
  match answer with
  | (.ok node, supply) => rest node supply
  | (.error _, _) => false

theorem exists_of_returns
    {answer : Except Failure Plan × AliasSupply} {rest : Plan → AliasSupply → Bool}
    (h : returns answer rest = true) :
    ∃ node supply, answer = (.ok node, supply) ∧ rest node supply = true := by
  obtain ⟨outcome, supply⟩ := answer
  cases outcome with
  | error failure => cases h
  | ok node => exact ⟨node, supply, rfl, h⟩

def halfTerm : MetricTerm := ⟨"half", .ratio (.input "amount") (.literal 2.0)⟩

def quarterTerm : MetricTerm := ⟨"quarter", .ratio (.input "half") (.literal 2.0)⟩

/-- A quarter is computed from a half; the amount itself is out of sight then. -/
theorem quarter_forgets_amount :
    ∃ input base first second : Plan, ∃ s₁ s₂ s₃ s₄ : AliasSupply,
      input.aggregateBy ⟨["listing"], by decide⟩ [⟨"amount", .sum⟩] s₁ = (.ok base, s₂) ∧
        base.computeMetrics [halfTerm] s₂ = (.ok first, s₃) ∧
        first.computeMetrics [quarterTerm] s₃ = (.ok second, s₄) ∧
        second.columnNames = ["listing", "quarter"] ∧
        second.computeMetrics [⟨"again", .input "amount"⟩] s₄ =
          (.error (.unresolvedMetricInput "again" "amount"), s₄) := by
  have hbuilt : (returns (bookings.read [⟨"listing", none⟩, ⟨"amount", none⟩] {})
      fun input s₁ => returns
        (input.aggregateBy ⟨["listing"], by decide⟩ [⟨"amount", .sum⟩] s₁)
      fun base s₂ => returns (base.computeMetrics [halfTerm] s₂)
      fun first s₃ => returns (first.computeMetrics [quarterTerm] s₃)
      fun _ _ => true) = true := by decide +kernel
  obtain ⟨input, s₁, -, hbuilt⟩ := exists_of_returns hbuilt
  obtain ⟨base, s₂, hbase, hbuilt⟩ := exists_of_returns hbuilt
  obtain ⟨first, s₃, hfirst, hbuilt⟩ := exists_of_returns hbuilt
  obtain ⟨second, s₄, hsecond, -⟩ := exists_of_returns hbuilt
  have htower : base.Tower second := .stage (.stage .base hfirst) hsecond
  obtain ⟨hcarries, hoffers, -, -, hfails⟩ := Plan.tower_keeps_keys hbase htower
  have hvalues : second.values = ["quarter"] := by
    obtain ⟨keys, columns, -, rfl, -⟩ := Plan.computeMetrics_eq_ok hsecond
    rfl
  have hamount : ¬ second.Offers "amount" := by
    rw [hoffers, hvalues]
    decide
  refine ⟨input, base, first, second, s₁, s₂, s₃, s₄, hbase, hfirst, hsecond, ?_, ?_⟩
  · rw [hcarries.names_eq, hvalues]
    rfl
  · exact (hfails [⟨"again", .input "amount"⟩] s₄ "again" "amount" [] [] rfl hamount
      (by simp)).1 (by simp)

end Sample

end MetricSql
