import MetricSql.Proofs.Plan.Columns
import MetricSql.Proofs.Plan.Stages

/-!
# The shape of built plans

A built plan computes metrics over one aggregation of what is gathered for it:
the rows of the anchor, joined with one relation for each link.  The columns of
the result are what was asked for, in order, and the aliases of the stages are
numbered in the order in which the stages are built.
-/

namespace MetricSql

/-! ## What is gathered -/

/-- A stage that selects from the table of a model. -/
def Plan.Reads (plan : Plan) (model : Model) : Prop :=
  ∃ aliasName tableAlias columns,
    plan = .read aliasName model.name model.table tableAlias columns

theorem Plan.Reads.stages {plan : Plan} {model : Model} (h : plan.Reads model) :
    plan.stages = [plan] := by
  obtain ⟨aliasName, tableAlias, columns, rfl⟩ := h
  rfl

theorem Model.read_reads {model : Model} {elements : List ElementRef}
    {supply supply' : AliasSupply} {node : Plan}
    (h : model.read elements supply = (.ok node, supply')) : node.Reads model := by
  obtain ⟨-, columns, -, rfl, -⟩ := Model.read_eq_ok.mp h
  exact ⟨_, _, columns, rfl⟩

/-- A relation that is joined for a link: the model of the link, on its entity
alone, which the first stage has. -/
structure Joined.Follows (manifest : Manifest) (link : String × String)
    (joined : Joined Plan) : Prop where
  reads : ∃ model ∈ manifest.models, model.name = link.2 ∧ joined.right.Reads model
  kind_eq : joined.kind = .leftOuter
  keys_eq : joined.keys = [⟨link.1, AliasSupply.subqueryAlias 0, link.1, link.1⟩]
  qualifier_eq : joined.qualifier = some link.1

theorem forall₂_zipWith {α β γ : Type} {R : α → β → Prop} {S : α → γ → Prop} {f : α → β → γ}
    {xs : List α} {ys : List β} (h : List.Forall₂ R xs ys)
    (hstep : ∀ x y, x ∈ xs → R x y → S x (f x y)) :
    List.Forall₂ S xs (List.zipWith f xs ys) := by
  induction h with
  | nil => exact .nil
  | cons hxy _ ih =>
      refine .cons (hstep _ _ List.mem_cons_self hxy) (ih ?_)
      intro x y hx
      exact hstep x y (List.mem_cons_of_mem _ hx)

theorem LinkedRead.joined_follows {manifest : Manifest} {time : Option String}
    {read : LinkedRead} {target : JoinTarget} (hmodel : read.model ∈ manifest.models)
    (htarget : IsTarget time read target) :
    (read.joined time (AliasSupply.subqueryAlias 0) target.node).Follows manifest
      read.link := by
  obtain ⟨node, before, after, hnode, rfl⟩ := htarget
  exact ⟨⟨read.model, hmodel, rfl, Model.read_reads hnode⟩, rfl, rfl, rfl⟩

/-- The stage below the aggregation: the anchor is read first, then the models of
the links in order, and then they are joined. -/
inductive Plan.Gathers (manifest : Manifest) (anchor : Model) :
    List (String × String) → Plan → Prop
  | anchor {plan : Plan} (reads : plan.Reads anchor)
      (first : plan.aliasName = AliasSupply.subqueryAlias 0) :
      Gathers manifest anchor [] plan
  | join {links : List (String × String)} {left : Plan} {joined : List (Joined Plan)}
      {columns : List Column} (linked : links ≠ []) (reads : left.Reads anchor)
      (first : left.aliasName = AliasSupply.subqueryAlias 0)
      (follows : List.Forall₂ (Joined.Follows manifest) links joined)
      (next : joined.map (·.right.aliasName) =
        (List.range' 1 links.length).map AliasSupply.subqueryAlias) :
      Gathers manifest anchor links
        (.join (AliasSupply.subqueryAlias (links.length + 1)) left joined columns)

namespace Plan

variable {manifest : Manifest} {anchor : Model} {links : List (String × String)} {plan : Plan}

theorem stages_join {links : List (String × String)} {aliasName : String} {left : Plan}
    {joined : List (Joined Plan)} {columns : List Column} (hleft : left.Reads anchor)
    (hfollows : List.Forall₂ (Joined.Follows manifest) links joined) :
    (join aliasName left joined columns).stages =
      join aliasName left joined columns :: left :: joined.map (·.right) := by
  have hright : ∀ target ∈ joined, target.right.stages = [target.right] := by
    intro target htarget
    obtain ⟨link, -, hfollow⟩ := forall₂_exists_left hfollows htarget
    obtain ⟨model, -, -, hreads⟩ := hfollow.reads
    exact hreads.stages
  have hrest : (joined.map (·.right)).flatMap stages = joined.map (·.right) := by
    rw [List.flatMap_map, List.map_eq_flatMap]
    exact List.flatMap_congr hright
  rw [stages_eq, children, List.flatMap_cons, hleft.stages, hrest]
  rfl

/-- All numbers below the number of stages occur as aliases, once each. -/
def Numbered (plan : Plan) : Prop :=
  (plan.stages.map aliasName).Perm ((List.range plan.size).map AliasSupply.subqueryAlias)

theorem Gathers.numbered (h : plan.Gathers manifest anchor links) : plan.Numbered := by
  unfold Numbered size
  cases h with
  | anchor reads first =>
      rw [reads.stages, List.map_singleton, first]
      exact .refl _
  | join linked reads first follows next =>
      rename_i left joined columns
      have hlength := follows.length_eq
      have hnext : (joined.map (·.right)).map aliasName =
          (List.range' 1 links.length).map AliasSupply.subqueryAlias := by
        rw [List.map_map]
        exact next
      rw [stages_join reads follows, List.map_cons, List.map_cons, hnext, first,
        List.length_cons, List.length_cons, List.length_map, ← hlength, List.range_succ,
        List.map_append, List.range_eq_range', List.range'_succ]
      exact (List.perm_append_singleton _ _).symm

/-- A stage above all others takes the next number. -/
theorem Numbered.above {input : Plan} (h : input.Numbered)
    (halias : plan.aliasName = AliasSupply.subqueryAlias input.size)
    (hstages : plan.stages = plan :: input.stages) :
    plan.Numbered ∧ plan.size = input.size + 1 := by
  have hsize : plan.size = input.size + 1 := by
    rw [size, hstages, List.length_cons, size]
  refine ⟨?_, hsize⟩
  unfold Numbered
  rw [hsize, hstages, List.map_cons, halias, List.range_succ, List.map_append]
  exact (h.cons _).trans (List.perm_append_singleton _ _).symm

end Plan

section Built

variable {manifest : Manifest} {request : Request} {resolved : Resolved}
  {primary joined : Plan} {targets : List JoinTarget} {s₁ s₂ s₃ : AliasSupply}

/-- The anchor and the linked models are gathered, and have taken as many aliases
as there are stages. -/
theorem Resolved.joined_gathers (hsorted : resolved.Sorted manifest request)
    (hread : resolved.anchor.read resolved.elements {} = (.ok primary, s₁))
    (hreads : LinkedRead.readAll resolved.time resolved.linked s₁ = .ok (targets, s₂))
    (hjoin : primary.joinTargets targets s₂ = (.ok joined, s₃)) :
    joined.Gathers manifest resolved.anchor
        (manifest.links resolved.anchor request.groupBy) ∧
      s₃.subqueries = joined.size := by
  have hprimary := Model.read_reads hread
  obtain ⟨-, columns, -, hnode, rfl⟩ := Model.read_eq_ok.mp hread
  have hfirst : primary.aliasName = AliasSupply.subqueryAlias 0 := by
    rw [hnode]
    rfl
  obtain ⟨htargets, haliases⟩ := LinkedRead.readAll_eq_ok hreads
  have hsupply : s₂.subqueries = 1 + resolved.linked.length :=
    LinkedRead.readAll_supply hreads
  have hlength := htargets.length_eq
  rw [← hsorted.linked_eq]
  rcases Plan.joinTargets_eq_ok hjoin with ⟨rfl, rfl, rfl⟩ |
    ⟨found, hne, hattach, -, rfl, rfl⟩
  · have hnone : resolved.linked = [] := List.length_eq_zero_iff.mp hlength
    rw [hnone] at hsupply ⊢
    refine ⟨.anchor hprimary hfirst, ?_⟩
    rw [hsupply, Plan.size, hprimary.stages]
    rfl
  · have hjoined := hsorted.joined_eq hread htargets hattach
    have hright : found.map (·.right) = targets.map (·.node) :=
      JoinTarget.attachAll_right hattach
    have hfollows : List.Forall₂ (Joined.Follows manifest)
        (resolved.linked.map LinkedRead.link) found := by
      rw [hjoined, List.forall₂_map_left_iff, hfirst]
      refine forall₂_zipWith htargets fun read target hmem htarget => ?_
      obtain ⟨before, hcollects, rfl⟩ := hsorted.collects read hmem
      refine LinkedRead.joined_follows ?_ htarget
      rw [before.widens_widened.model_eq]
      exact hcollects.model_mem
    have hlinks : resolved.linked.map LinkedRead.link ≠ [] := by
      intro hnil
      rw [List.map_eq_nil_iff] at hnil
      rw [hnil] at hlength
      exact hne (List.length_eq_zero_iff.mp hlength.symm)
    have hnumber : AliasSupply.subqueryAlias s₂.subqueries =
        AliasSupply.subqueryAlias ((resolved.linked.map LinkedRead.link).length + 1) := by
      rw [hsupply, List.length_map, Nat.add_comm]
    constructor
    · rw [hnumber]
      refine .join hlinks hprimary hfirst hfollows ?_
      calc
        _ = (found.map (·.right)).map Plan.aliasName := by rw [List.map_map]; rfl
        _ = targets.map (·.node.aliasName) := by rw [hright, List.map_map]; rfl
        _ = _ := by rw [haliases, List.length_map]
    · rw [Plan.size, Plan.stages_join hprimary hfollows, List.length_cons, List.length_cons,
        List.length_map, ← hfollows.length_eq, List.length_map]
      simp only
      omega

end Built

/-! ## Requests -/

theorem Manifest.links_eq_nil_iff {manifest : Manifest} {anchor : Model}
    {items : List GroupItem} (h : ∀ item ∈ items, manifest.Resolves anchor item) :
    manifest.links anchor items = [] ↔ ∀ item ∈ items, item.via = none := by
  rw [Manifest.links, List.eq_nil_iff_forall_not_mem]
  simp only [List.mem_eraseDups, List.mem_filterMap]
  constructor
  · intro hnone item hitem
    cases hvia : item.via with
    | none => rfl
    | some entity =>
        obtain ⟨-, model, hmodel⟩ :=
          (Manifest.resolves_iff_of_linked hvia).mp (h item hitem)
        exact (hnone _ ⟨item, hitem, Manifest.linkName?_of_linked hvia hmodel⟩).elim
  · rintro hlocal link ⟨item, hitem, hlink⟩
    rw [Manifest.linkName?_of_local (hlocal item hitem)] at hlink
    cases hlink

theorem Manifest.plan_shape {manifest : Manifest} {request : Request} {plan : Plan}
    (hmodels : (manifest.models.map (·.name)).Nodup)
    (h : manifest.plan request = .ok plan) :
    ∃ anchor aggregated input,
      manifest.Anchors request anchor ∧
      (∃ keys terms columns,
        plan = .metrics (AliasSupply.subqueryAlias (input.size + 1)) aggregated keys terms
          columns) ∧
      (∃ keys measures columns,
        aggregated = .aggregate (AliasSupply.subqueryAlias input.size) input keys measures
          columns ∧
        keys.names = request.groupBy.map (·.columnName)) ∧
      input.Gathers manifest anchor (manifest.links anchor request.groupBy) ∧
      (manifest.links anchor request.groupBy = [] ↔
        ∀ item ∈ request.groupBy, item.via = none) ∧
      plan.columnNames = request.groupBy.map (·.columnName) ++ request.metrics ∧
      (∀ item ∈ request.groupBy, ∃ element,
        manifest.itemElement? anchor item = some element ∧
          aggregated.Shows item.columnName element ∧ plan.Shows item.columnName element) ∧
      (plan.stages.map Plan.aliasName).Perm
        ((List.range plan.size).map AliasSupply.subqueryAlias) := by
  obtain ⟨resolved, hresolve, hplan⟩ := bind_eq_ok.mp h
  obtain ⟨-, hmetrics, hmeasures, hkeys, -⟩ := Manifest.resolve_eq_ok hresolve
  have hmeasured := Manifest.resolveMeasures_measured hmodels hmeasures
  have hsorted := Manifest.resolve_sorted hresolve
  obtain ⟨primary, targets, joined, aggregated, s₁, s₂, s₃, s₄, s₅, hread, hreads, hjoin,
    haggregate, hcompute⟩ := Resolved.plan_eq_ok hplan
  obtain ⟨hgathers, hsupply⟩ := Resolved.joined_gathers hsorted hread hreads hjoin
  have hkey : ∀ item ∈ request.groupBy, item.columnName ∈ resolved.keys.names := by
    intro item hitem
    rw [hkeys]
    exact List.mem_map_of_mem hitem
  -- The keys of the aggregation are among its columns, so that no key is dropped.
  have hkept : ∀ name ∈ resolved.keys.names, name ∈ aggregated.columnNames := by
    intro name hname
    rw [(Plan.aggregateBy_columnNames haggregate).1]
    exact List.mem_append_left _ hname
  obtain ⟨aggregates, -, haggregated, hs₄⟩ := Plan.aggregateBy_eq_ok haggregate
  have hgrouped : aggregated.groupKeys? = some resolved.keys := by
    rw [haggregated]
    rfl
  have hcolumns := (Plan.computeMetrics_columnNames hcompute hgrouped hkept).1
  obtain ⟨keys, columns, -, hmetricStage, -⟩ := Plan.computeMetrics_eq_ok hcompute
  rw [hsupply] at haggregated
  have hbelow : aggregated.Numbered ∧ aggregated.size = joined.size + 1 :=
    hgathers.numbered.above (by rw [haggregated]; rfl) (by rw [haggregated]; rfl)
  have halias : plan.aliasName = AliasSupply.subqueryAlias aggregated.size := by
    rw [hmetricStage, hs₄, hbelow.2, ← hsupply]
    rfl
  refine ⟨resolved.anchor, aggregated, joined, hmeasured.anchors hmetrics,
    ?_, ⟨_, _, _, haggregated, hkeys⟩, hgathers,
    Manifest.links_eq_nil_iff hsorted.resolves, ?_, ?_, ?_⟩
  · rw [hs₄] at hmetricStage
    rw [← hsupply]
    exact ⟨_, _, _, hmetricStage⟩
  · rw [hcolumns, hkeys, List.map_map, ← Manifest.map_metric_names hmetrics]
    rfl
  · intro item hitem
    obtain ⟨element, helement, -, hshows⟩ :=
      Resolved.joined_shows hmodels hsorted hread hreads hjoin hitem
    have habove := Plan.aggregateBy_shows haggregate (hkey item hitem) hshows
    exact ⟨element, helement, habove,
      Plan.computeMetrics_shows hcompute hgrouped (hkey item hitem) habove⟩
  · exact (hbelow.1.above halias (by rw [hmetricStage]; rfl)).1

namespace Sample

theorem exists_plan : ∃ plan, manifest.plan request = .ok plan ∧ plan.size = 5 := by
  have hok : (manifest.plan request).toOption.any (fun plan => plan.size == 5) = true := by
    decide +kernel
  cases hplan : manifest.plan request with
  | error failure =>
      rw [hplan] at hok
      cases hok
  | ok plan =>
      rw [hplan] at hok
      exact ⟨plan, rfl, by simpa [Except.toOption] using hok⟩

theorem anchors_bookings : manifest.Anchors request bookings := by
  have hhalf : manifest.metric? "half" =
      some { name := "half", formula := .ratio (.input "amount") (.literal 2.0) } := rfl
  refine ⟨?_, ?_, "amount", "half", by decide, _, hhalf, by decide⟩
  · intro name hname
    rw [List.mem_singleton.mp hname]
    exact ⟨_, hhalf⟩
  · rintro input ⟨name, hname, metric, hmetric, hinput⟩
    rw [List.mem_singleton.mp hname] at hmetric
    cases hhalf.symm.trans hmetric
    have hamount : input = "amount" := by
      simpa [Metric.inputs, Formula.mem_inputs, Formula.leaves] using hinput
    rw [hamount]
    rfl

theorem listings_shape :
    (manifest.models.map (·.name)).Nodup ∧
      ∃ plan input : Plan, manifest.plan request = .ok plan ∧
        input.Gathers manifest bookings [("listing", "listings")] ∧
        plan.columnNames = ["ds__month", "listing__country", "half"] ∧
        (plan.stages.map Plan.aliasName).Perm
          ["subq_0", "subq_1", "subq_2", "subq_3", "subq_4"] := by
  have hmodels : (manifest.models.map (·.name)).Nodup := by decide
  obtain ⟨plan, hplan, hsize⟩ := exists_plan
  obtain ⟨anchor, aggregated, input, hanchors, -, -, hgathers, -, hcolumns, -, haliases⟩ :=
    Manifest.plan_shape hmodels hplan
  cases hanchors.unique anchors_bookings
  have hlinks : manifest.links bookings request.groupBy = [("listing", "listings")] := by
    decide +kernel
  refine ⟨hmodels, plan, input, hplan, hlinks ▸ hgathers, ?_, ?_⟩
  · rw [hcolumns]
    decide
  · rw [hsize] at haliases
    exact haliases

end Sample

end MetricSql
