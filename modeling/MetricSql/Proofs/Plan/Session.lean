import MetricSql.Proofs.Plan.Steps

/-!
# Sequences of planner calls

A session makes one planner call after the other on one supply of aliases.  A
call names the nodes it works on by their place among those returned so far; a
call that fails returns no node, and the session goes on.  Nothing keeps a node
from being used twice: where that matters, `UsedOnce` rules it out.
-/

namespace MetricSql

theorem AliasSupply.subqueryAlias_injective : Function.Injective subqueryAlias := by
  intro m n h
  have hrepr : m.repr = n.repr := (String.append_right_inj "subq_").mp h
  have hdigits : Nat.toDigits 10 m = Nat.toDigits 10 n := by
    rw [← Nat.toList_repr, ← Nat.toList_repr, hrepr]
  rw [← Nat.ofDigitChars_ten_toDigits (n := m), hdigits, Nat.ofDigitChars_ten_toDigits]

/-- A target of a join, with its node named by its place. -/
structure TargetCall where
  node : Nat
  keys : List String
  role : JoinRole := .dimension
  qualifier : Option String := none
  window : Option WindowJoin := none

/-- One call of a planner. -/
inductive PlannerCall where
  | read (model : Model) (elements : List ElementRef)
  | join (primary : Nat) (targets : List TargetCall)
  | aggregate (input : Nat) (keys : GroupKeys) (measures : List MeasureTerm)
  | metrics (input : Nat) (terms : List MetricTerm)

/-- The places of the nodes that a call takes. -/
def PlannerCall.uses : PlannerCall → List Nat
  | read _ _ => []
  | join primary targets => primary :: targets.map (·.node)
  | aggregate input _ _ => [input]
  | metrics input _ => [input]

/-- Each node goes into at most one call. -/
def UsedOnce (calls : List PlannerCall) : Prop :=
  (calls.flatMap PlannerCall.uses).Nodup

def TargetCall.target? (nodes : List Plan) (call : TargetCall) : Option JoinTarget :=
  nodes[call.node]?.map fun node =>
    { node, keys := call.keys, role := call.role, qualifier := call.qualifier,
      window := call.window }

/-- The supply of aliases and the nodes returned so far, the oldest first. -/
structure Session where
  supply : AliasSupply := {}
  nodes : List Plan := []

namespace Session

/-- The answer to a call, none when it names a node that is not there. -/
def answer? (session : Session) : PlannerCall → Option (Except Failure Plan × AliasSupply)
  | .read model elements => some (model.read elements session.supply)
  | .join primary targets => do
    let primary ← session.nodes[primary]?
    let targets ← targets.mapM (TargetCall.target? session.nodes)
    return primary.joinTargets targets session.supply
  | .aggregate input keys measures => do
    let input ← session.nodes[input]?
    return input.aggregateBy keys measures session.supply
  | .metrics input terms => do
    let input ← session.nodes[input]?
    return input.computeMetrics terms session.supply

def step (session : Session) (call : PlannerCall) : Session :=
  match session.answer? call with
  | some (.ok node, supply) => ⟨supply, session.nodes ++ [node]⟩
  | some (.error _, supply) => ⟨supply, session.nodes⟩
  | none => session

/-- The session after all calls. -/
def run (calls : List PlannerCall) : Session := calls.foldl step {}

/-- The targets of a join call are nodes of the session, in the order of the
places that the call names. -/
theorem targets_eq_some {nodes : List Plan} {calls : List TargetCall}
    {targets : List JoinTarget}
    (h : calls.mapM (TargetCall.target? nodes) = some targets) :
    List.Forall₂ (fun place node => nodes[place]? = some node)
      (calls.map (·.node)) (targets.map (·.node)) := by
  induction calls generalizing targets with
  | nil =>
      cases h
      simp
  | cons call rest ih =>
      simp only [List.mapM_cons, Option.bind_eq_bind, Option.bind_eq_some_iff,
        Option.pure_def, Option.some.injEq] at h
      obtain ⟨target, htarget, others, hothers, rfl⟩ := h
      obtain ⟨node, hnode, rfl⟩ := Option.map_eq_some_iff.mp htarget
      exact .cons hnode (ih hothers)

/-- A step adds nothing, or the node that one of the planners returns for nodes
of the session. -/
theorem step_cases (session : Session) (call : PlannerCall) :
    (session.step call).nodes = session.nodes ∧
        (session.step call).supply.subqueries = session.supply.subqueries ∨
      ∃ node, (session.step call).nodes = session.nodes ++ [node] ∧
        session.answer? call = some (.ok node, (session.step call).supply) := by
  unfold step
  cases hanswer : session.answer? call with
  | none => exact .inl ⟨rfl, rfl⟩
  | some answer =>
      obtain ⟨outcome, supply⟩ := answer
      cases outcome with
      | ok node => exact .inr ⟨node, rfl, rfl⟩
      | error failure =>
          refine .inl ⟨rfl, ?_⟩
          cases call with
          | read model elements =>
              exact Model.read_eq_error (Option.some.inj hanswer)
          | join primary targets =>
              simp only [answer?, Option.bind_eq_bind, Option.bind_eq_some_iff,
                Option.pure_def, Option.some.injEq] at hanswer
              obtain ⟨primary, -, targets, -, hjoin⟩ := hanswer
              rw [Plan.joinTargets_eq_error hjoin]
          | aggregate input keys measures =>
              simp only [answer?, Option.bind_eq_bind, Option.bind_eq_some_iff,
                Option.pure_def, Option.some.injEq] at hanswer
              obtain ⟨input, -, haggregate⟩ := hanswer
              rw [Plan.aggregateBy_eq_error haggregate]
          | metrics input terms =>
              simp only [answer?, Option.bind_eq_bind, Option.bind_eq_some_iff,
                Option.pure_def, Option.some.injEq] at hanswer
              obtain ⟨input, -, hmetrics⟩ := hanswer
              rw [Plan.computeMetrics_eq_error hmetrics]

/-- What a successful answer is, by the kind of call. -/
theorem answer?_eq_ok {session : Session} {call : PlannerCall} {node : Plan}
    {supply : AliasSupply} (h : session.answer? call = some (.ok node, supply)) :
    (∃ model elements, call = .read model elements ∧
        model.read elements session.supply = (.ok node, supply)) ∨
      (∃ place calls primary targets, call = .join place calls ∧
        List.Forall₂ (fun place node => session.nodes[place]? = some node)
          call.uses (primary :: targets.map (·.node)) ∧
        primary.joinTargets targets session.supply = (.ok node, supply)) ∨
      (∃ place keys measures input, call = .aggregate place keys measures ∧
        session.nodes[place]? = some input ∧
        input.aggregateBy keys measures session.supply = (.ok node, supply)) ∨
      ∃ place terms input, call = .metrics place terms ∧
        session.nodes[place]? = some input ∧
        input.computeMetrics terms session.supply = (.ok node, supply) := by
  cases call with
  | read model elements =>
      exact .inl ⟨model, elements, rfl, Option.some.inj h⟩
  | join place calls =>
      simp only [answer?, Option.bind_eq_bind, Option.bind_eq_some_iff,
        Option.pure_def, Option.some.injEq] at h
      obtain ⟨primary, hprimary, targets, htargets, hjoin⟩ := h
      exact .inr (.inl ⟨place, calls, primary, targets, rfl,
        .cons hprimary (targets_eq_some htargets), hjoin⟩)
  | aggregate place keys measures =>
      simp only [answer?, Option.bind_eq_bind, Option.bind_eq_some_iff,
        Option.pure_def, Option.some.injEq] at h
      obtain ⟨input, hinput, haggregate⟩ := h
      exact .inr (.inr (.inl ⟨place, keys, measures, input, rfl, hinput, haggregate⟩))
  | metrics place terms =>
      simp only [answer?, Option.bind_eq_bind, Option.bind_eq_some_iff,
        Option.pure_def, Option.some.injEq] at h
      obtain ⟨input, hinput, hmetrics⟩ := h
      exact .inr (.inr (.inr ⟨place, terms, input, rfl, hinput, hmetrics⟩))

/-- What all planners pass on from the nodes they are given to the node they return
holds of every node, however often nodes are used. -/
theorem run_induction {P : Plan → Prop}
    (hread : ∀ {model : Model} {elements : List ElementRef} {supply supply' : AliasSupply}
      {node : Plan}, model.read elements supply = (.ok node, supply') → P node)
    (hjoin : ∀ {primary node : Plan} {targets : List JoinTarget}
      {supply supply' : AliasSupply}, P primary → (∀ target ∈ targets, P target.node) →
      primary.joinTargets targets supply = (.ok node, supply') → P node)
    (haggregate : ∀ {input node : Plan} {keys : GroupKeys} {measures : List MeasureTerm}
      {supply supply' : AliasSupply}, P input →
      input.aggregateBy keys measures supply = (.ok node, supply') → P node)
    (hmetrics : ∀ {input node : Plan} {terms : List MetricTerm}
      {supply supply' : AliasSupply}, P input →
      input.computeMetrics terms supply = (.ok node, supply') → P node)
    (calls : List PlannerCall) : ∀ node ∈ (run calls).nodes, P node := by
  have hstep : ∀ (session : Session) (call : PlannerCall),
      (∀ node ∈ session.nodes, P node) → ∀ node ∈ (session.step call).nodes, P node := by
    intro session call hnodes node hnode
    have hplace : ∀ {place : Nat} {node : Plan}, session.nodes[place]? = some node → P node :=
      fun h => hnodes _ (List.mem_of_getElem? h)
    rcases step_cases session call with ⟨hsame, -⟩ | ⟨added, hadded, hanswer⟩
    · exact hnodes node (hsame ▸ hnode)
    · rw [hadded, List.mem_append, List.mem_singleton] at hnode
      rcases hnode with hnode | rfl
      · exact hnodes node hnode
      · rcases answer?_eq_ok hanswer with ⟨model, elements, -, h⟩ |
          ⟨place, targetCalls, primary, targets, -, huses, h⟩ |
          ⟨place, keys, measures, input, -, hinput, h⟩ | ⟨place, terms, input, -, hinput, h⟩
        · exact hread h
        · have hused : ∀ used ∈ primary :: targets.map (·.node), P used := by
            intro used hmem
            obtain ⟨place, -, hfound⟩ := forall₂_exists_left huses hmem
            exact hplace hfound
          exact hjoin (hused primary List.mem_cons_self) (fun target htarget =>
            hused target.node (List.mem_cons_of_mem _ (List.mem_map_of_mem htarget))) h
        · exact haggregate (hplace hinput) h
        · exact hmetrics (hplace hinput) h
  have hfold : ∀ (calls : List PlannerCall) (session : Session),
      (∀ node ∈ session.nodes, P node) → ∀ node ∈ (calls.foldl step session).nodes, P node := by
    intro calls
    induction calls with
    | nil => exact fun session hnodes => hnodes
    | cons call rest ih => exact fun session hnodes => ih _ (hstep session call hnodes)
  exact hfold calls {} (by simp)

end Session

/-! ## A sample -/

namespace Sample

def bookings : Model where
  name := "bookings"
  table := { schema := some "dw", name := "fct_bookings" }
  entities := [
    { name := "listing", expression := some "listing_id", kind := .foreign, dataType := .int }]
  dimensions := [{ name := "ds", kind := .time, dataType := .date }]
  measures := [{ name := "amount", aggregation := .sum, source := .column "Amount" }]

/-- Listings change over time: a row is valid from one day to another. -/
def listings : Model where
  name := "listings"
  table := { name := "dim_listings" }
  entities := [
    { name := "listing", expression := some "id", kind := .natural, dataType := .int }]
  dimensions := [
    { name := "country", kind := .categorical, dataType := .string },
    { name := "since", kind := .time, dataType := .date },
    { name := "until", kind := .time, dataType := .date }]
  window := some ⟨"since", "until"⟩

def manifest : Manifest where
  models := [bookings, listings]
  metrics := [
    { name := "half", formula := .ratio (.input "amount") (.literal 2.0) }]

def request : Request where
  metrics := ["half"]
  groupBy := [
    { name := "ds", grain := some .month }, { name := "country", via := some "listing" }]

/-- Bookings by the country of the listing; the second call fails. -/
def calls : List PlannerCall := [
  .read bookings [⟨"listing", none⟩, ⟨"ds", none⟩, ⟨"amount", none⟩],
  .read listings [⟨"city", none⟩],
  .read listings [⟨"listing", none⟩, ⟨"country", none⟩, ⟨"since", none⟩, ⟨"until", none⟩],
  .join 0 [
    { node := 1, keys := ["listing"], qualifier := some "listing",
      window := some ⟨"ds", "since", "until"⟩ }],
  .aggregate 2 ⟨["listing__country"], by decide⟩ [⟨"amount", .sum⟩],
  .metrics 3 [⟨"half", .ratio (.input "amount") (.literal 2.0)⟩]]

theorem usedOnce_calls : UsedOnce calls := by
  unfold UsedOnce
  decide

end Sample

end MetricSql
