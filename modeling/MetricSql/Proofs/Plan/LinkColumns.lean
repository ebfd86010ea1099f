import MetricSql.Proofs.Plan.Shape

/-!
# The columns that joins compare

A linked model is joined on an entity and inside its validity window.  On the side of the linked model these are
the entity and the bounds as they stand in the table.  On the side of the anchor a column is found by its name
alone.  A dimension that the request truncates has the grain at the end of its name, and if an entity or the time
of the anchor has that very name, the truncated dimension stands in for it.
-/

namespace MetricSql

/-! ## Expressions of columns -/

/-- The column of the name is the expression. -/
def Plan.Selects (plan : Plan) (name : String) (expr : Expr) : Prop :=
  ∃ column, plan.column? name = some column ∧ column.expr = expr

theorem Plan.Selects.unique
    {plan : Plan} {name : String} {expr other : Expr} (h : plan.Selects name expr)
    (hother : plan.Selects name other) : expr = other := by
  obtain ⟨column, hcolumn, rfl⟩ := h
  obtain ⟨found, hfound, rfl⟩ := hother
  cases hcolumn.symm.trans hfound
  rfl

/-- What the element is in a row of the table. -/
def Element.expr (tableAlias : String) : Element → Expr
  | .entity e => .physical tableAlias e.column
  | .dimension d => .physical tableAlias d.column
  | .measure m =>
    match m.source with
    | .column expression => .physical tableAlias expression
    | .constant value => .int value

theorem Element.expr_ne_dateTrunc
    (element : Element) (tableAlias : String) (grain : Grain) (expr : Expr) :
    element.expr tableAlias ≠ .dateTrunc grain expr := by
  cases element with
  | entity entity =>
      rw [Element.expr, Expr.physical]
      split <;> simp [Expr.of]
  | dimension dimension =>
      rw [Element.expr, Expr.physical]
      split <;> simp [Expr.of]
  | measure measure =>
      rw [Element.expr]
      split
      · rw [Expr.physical]
        split <;> simp [Expr.of]
      · simp

namespace Model

theorem elementColumn_expr (tableAlias name : String) (element : Element) :
    (elementColumn tableAlias ⟨name, none⟩ element).expr = element.expr tableAlias := by
  cases element <;> rfl

theorem dimension?_of_element?
    {model : Model} {name : String} {dimension : Dimension}
    (h : model.element? name = some (.dimension dimension)) :
    model.dimension? name = some dimension := by
  cases hentity : model.entity? name with
  | some entity =>
      rw [element?_of_entity? hentity] at h
      cases h
  | none =>
      cases hdimension : model.dimension? name with
      | some found =>
          simp only [element?, hentity, hdimension] at h
          cases h
          rfl
      | none => simp [element?, hentity, hdimension] at h

/-- Where the elements have different names, the first time dimension is what its name stands
for. -/
theorem element?_of_timeDimension?
    {model : Model} {dimension : Dimension} (hnames : model.elementNames.Nodup)
    (h : model.timeDimension? = some dimension) :
    model.element? dimension.name = some (.dimension dimension) := by
  have hmem := List.mem_of_find?_eq_some h
  rw [elementNames, List.append_assoc, List.nodup_append'] at hnames
  obtain ⟨-, hrest, hdisjoint⟩ := hnames
  have hentity : model.entity? dimension.name = none := by
    rw [entity?, List.find?_eq_none]
    intro entity hin heq
    refine hdisjoint (List.mem_map_of_mem hin) (List.mem_append_left _ ?_)
    rw [show entity.name = dimension.name by simpa using heq]
    exact List.mem_map_of_mem hmem
  have hdimension : model.dimension? dimension.name = some dimension := by
    obtain ⟨found, hfound⟩ := dimension?_of_timeDimension? h
    obtain ⟨hin, hname⟩ := dimension?_mem hfound
    rw [hfound, List.inj_on_of_nodup_map (List.nodup_append'.mp hrest).1 hin hmem hname]
  rw [element?, hentity]
  simp only [hdimension]

variable {model : Model} {elements : List ElementRef} {supply supply' : AliasSupply} {node : Plan}
  {tableAlias : String}

theorem read_column?
    (h : model.read elements supply = (.ok node, supply')) {ref : ElementRef}
    (href : ref ∈ elements) :
    ∃ element, model.element? ref.name = some element ∧ checkGrain? element ref = .ok () ∧
      node.column? ref.columnName =
        some (elementColumn (AliasSupply.tableAlias model.name supply.tables) ref element) := by
  obtain ⟨-, hnodup⟩ := read_columnNames h
  obtain ⟨-, columns, hbind, rfl, -⟩ := read_eq_ok.mp h
  obtain ⟨column, hcolumn, hbound⟩ := forall₂_exists_left (bindAll_eq_ok.mp hbind).1.flip href
  have hfound := Plan.column?_of_mem hnodup hcolumn
  rw [bindElement_name hbound] at hfound
  obtain ⟨element, helement, hcheck, rfl⟩ := bindElement_eq_ok.mp hbound
  exact ⟨element, helement, hcheck, hfound⟩

theorem read_selects
    (h : model.read elements supply = (.ok node, supply')) {name : String}
    (hmem : ⟨name, none⟩ ∈ elements) :
    ∃ element, model.element? name = some element ∧
      node.Selects name (element.expr (AliasSupply.tableAlias model.name supply.tables)) := by
  obtain ⟨element, helement, -, hcolumn⟩ := read_column? h hmem
  exact ⟨element, helement, _, hcolumn, elementColumn_expr _ _ _⟩

theorem read_selects_truncated
    (h : model.read elements supply = (.ok node, supply')) {ref : ElementRef} {grain : Grain}
    (hmem : ref ∈ elements) (hgrain : ref.grain = some grain) :
    ∃ dimension, model.dimension? ref.name = some dimension ∧
      node.Selects ref.columnName (.dateTrunc grain
        (.physical (AliasSupply.tableAlias model.name supply.tables) dimension.column)) := by
  obtain ⟨element, helement, hcheck, hcolumn⟩ := read_column? h hmem
  obtain ⟨dimension, rfl⟩ := dimension_of_checkGrain? hcheck hgrain
  exact ⟨dimension, dimension?_of_element? helement, _, hcolumn, by simp [elementColumn, hgrain]⟩

end Model

/-! ## Names of the anchor -/

/-- An item of the anchor is truncated, and has the name then. -/
def Request.Truncates (request : Request) (name : String) : Prop :=
  ∃ item ∈ request.groupBy, item.via = none ∧ item.grain ≠ none ∧ item.columnName = name

section Anchor

variable {manifest : Manifest} {request : Request} {resolved : Resolved} {primary : Plan}
  {supply : AliasSupply} {name : String} {element : Element}

/-- Only items that are asked for are truncated. -/
theorem Resolved.Sorted.truncates
    (hsorted : resolved.Sorted manifest request) {ref : ElementRef}
    (href : ref ∈ resolved.elements) (hgrain : ref.grain ≠ none) :
    request.Truncates ref.columnName := by
  rcases hsorted.element_cases ref href with ⟨item, hitem, hvia, rfl⟩ | ⟨-, -, hnone⟩ |
    ⟨dimension, -, rfl⟩ | ⟨term, -, rfl⟩
  · exact ⟨item, hitem, hvia, hgrain, GroupItem.columnName_of_local hvia⟩
  · exact (hgrain hnone).elim
  · exact (hgrain rfl).elim
  · exact (hgrain rfl).elim

/-- A column of the anchor holds the element of its name exactly if nothing that is truncated has
the name. -/
theorem Resolved.Sorted.selects_iff
    (hsorted : resolved.Sorted manifest request)
    (hread : resolved.anchor.read resolved.elements {} = (.ok primary, supply))
    (hfound : ∃ ref ∈ resolved.elements, ref.columnName = name)
    (helement : resolved.anchor.element? name = some element) :
    primary.Selects name (element.expr (AliasSupply.tableAlias resolved.anchor.name 0)) ↔
      ¬ request.Truncates name := by
  obtain ⟨ref, href, rfl⟩ := hfound
  cases hgrain : ref.grain with
  | none =>
      have hname : ref.columnName = ref.name := by simp [ElementRef.columnName, hgrain]
      have hplain : (⟨ref.name, none⟩ : ElementRef) ∈ resolved.elements := by
        rw [← hgrain]
        exact href
      obtain ⟨found, hfound, hselects⟩ := Model.read_selects hread hplain
      rw [hname] at helement ⊢
      cases hfound.symm.trans helement
      refine iff_of_true hselects ?_
      rintro ⟨item, hitem, hvia, hitemGrain, hitemName⟩
      -- The item would be a second column of the name.
      obtain ⟨hnames, hnodup⟩ := Model.read_columnNames hread
      rw [hnames] at hnodup
      have hsame : item.element.columnName = ref.columnName := by
        rw [← GroupItem.columnName_of_local hvia, hitemName, hname]
      have heq := List.inj_on_of_nodup_map hnodup (hsorted.element_mem item hitem hvia) href hsame
      apply hitemGrain
      rw [← hgrain, ← heq]
      rfl
  | some grain =>
      obtain ⟨dimension, -, htruncated⟩ := Model.read_selects_truncated hread href hgrain
      refine iff_of_false ?_ (not_not_intro (hsorted.truncates href (by simp [hgrain])))
      intro hselects
      exact element.expr_ne_dateTrunc _ _ _ (hselects.unique htruncated)

end Anchor

/-! ## Joins of a built plan -/

/-- The stage reads the table of the model under the alias. -/
def Plan.ReadsAs (plan : Plan) (model : Model) (tableAlias : String) : Prop :=
  ∃ aliasName columns, plan = .read aliasName model.name model.table tableAlias columns

theorem Model.read_readsAs
    {model : Model} {elements : List ElementRef} {supply supply' : AliasSupply} {node : Plan}
    (h : model.read elements supply = (.ok node, supply')) :
    node.ReadsAs model (AliasSupply.tableAlias model.name supply.tables) := by
  obtain ⟨-, columns, -, rfl, -⟩ := Model.read_eq_ok.mp h
  exact ⟨_, columns, rfl⟩

section Stages

variable {manifest : Manifest} {request : Request} {plan primary : Plan} {aliasName : String}
  {joined : List (Joined Plan)} {columns : List Column}

theorem Plan.Gathers.eq_of_join_mem
    {anchor : Model} {links : List (String × String)} (h : plan.Gathers manifest anchor links)
    (hmem : .join aliasName primary joined columns ∈ plan.stages) :
    plan = .join aliasName primary joined columns := by
  have hnot : ∀ {node : Plan} {model : Model}, node.Reads model →
      .join aliasName primary joined columns ≠ node := by
    rintro node model ⟨_, _, _, rfl⟩ heq
    cases heq
  cases h with
  | anchor reads first =>
      rw [reads.stages, List.mem_singleton] at hmem
      exact hmem.symm
  | join linked reads first follows next =>
      rw [stages_join reads follows, List.mem_cons, List.mem_cons, List.mem_map] at hmem
      rcases hmem with heq | heq | ⟨relation, hrelation, heq⟩
      · exact heq.symm
      · exact (hnot reads heq).elim
      · obtain ⟨link, -, hfollows⟩ := forall₂_exists_left follows hrelation
        obtain ⟨model, -, -, hreads⟩ := hfollows.reads
        exact (hnot hreads heq.symm).elim

/-- The join of a built plan: the anchor is its left side, and each linked read is joined to it. -/
theorem Manifest.plan_join
    (h : manifest.plan request = .ok plan)
    (hmem : .join aliasName primary joined columns ∈ plan.stages) :
    ∃ resolved supply, manifest.resolve request = .ok resolved ∧
      resolved.anchor.read resolved.elements {} = (.ok primary, supply) ∧
      ∀ relation ∈ joined, ∃ read ∈ resolved.linked, ∃ node before after,
        read.model.read read.elements before = (.ok node, after) ∧
        relation = read.joined resolved.time primary.aliasName node := by
  obtain ⟨resolved, hresolve, hplan⟩ := bind_eq_ok.mp h
  have hsorted := Manifest.resolve_sorted hresolve
  obtain ⟨first, targets, input, aggregated, s₁, s₂, s₃, s₄, s₅, hread, hreads, hjoin,
    haggregate, hcompute⟩ := Resolved.plan_eq_ok hplan
  obtain ⟨hgathers, -⟩ := Resolved.joined_gathers hsorted hread hreads hjoin
  obtain ⟨_, -, rfl, -⟩ := Plan.aggregateBy_eq_ok haggregate
  obtain ⟨_, _, -, rfl, -⟩ := Plan.computeMetrics_eq_ok hcompute
  have hinput : input = .join aliasName primary joined columns := by
    apply hgathers.eq_of_join_mem
    simpa [Plan.stages] using hmem
  rcases Plan.joinTargets_eq_ok hjoin with ⟨-, rfl, -⟩ | ⟨found, -, hattach, -, rfl, -⟩
  · obtain ⟨-, _, -, rfl, -⟩ := Model.read_eq_ok.mp hread
    cases hinput
  · cases hinput
    have htargets := (LinkedRead.readAll_eq_ok hreads).1
    refine ⟨resolved, s₁, hresolve, hread, ?_⟩
    intro relation hrelation
    have hfound : List.Forall₂ (fun (read : LinkedRead) (relation : Joined Plan) =>
        ∃ node before after, read.model.read read.elements before = (.ok node, after) ∧
          relation = read.joined resolved.time primary.aliasName node)
        resolved.linked joined := by
      rw [hsorted.joined_eq hread htargets hattach]
      refine forall₂_zipWith htargets fun read target _ htarget => ?_
      obtain ⟨node, before, after, hnode, rfl⟩ := htarget
      exact ⟨node, before, after, hnode, rfl⟩
    exact forall₂_exists_left hfound hrelation

end Stages

/-- What a relation that is joined through an entity is compared with.  On its own side these are
the entity and the bounds of its window; on the side of the anchor the entity and the time, unless
the request truncates something to their names. -/
structure Joined.Compares
    (request : Request) (anchor model : Model) (entity : String) (primary : Plan)
    (leftAlias rightAlias : String) (relation : Joined Plan) : Prop where
  keys_eq : relation.keys = [⟨entity, primary.aliasName, entity, entity⟩]
  right_key : ∃ found, model.entity? entity = some found ∧
    relation.right.Selects entity (.physical rightAlias found.column)
  left_key : ∃ found, anchor.entity? entity = some found ∧
    (primary.Selects entity (.physical leftAlias found.column) ↔ ¬ request.Truncates entity)
  no_window : model.window = none → relation.window = none
  window : ∀ validity, model.window = some validity → ∃ dimension,
    anchor.timeDimension? = some dimension ∧
    relation.window =
      some ⟨primary.aliasName, dimension.name, validity.start, validity.stop⟩ ∧
    (∀ bound ∈ [validity.start, validity.stop], ∃ element, model.element? bound = some element ∧
      relation.right.Selects bound (element.expr rightAlias)) ∧
    (primary.Selects dimension.name (.physical leftAlias dimension.column) ↔
      ¬ request.Truncates dimension.name)

section Linked

variable {manifest : Manifest} {request : Request} {resolved : Resolved} {primary node : Plan}
  {supply before after : AliasSupply} {read : LinkedRead}

/-- A linked model is read for an item, with the entity first. -/
theorem Resolved.Sorted.linked_item
    (hsorted : resolved.Sorted manifest request) (hmem : read ∈ resolved.linked) :
    ⟨read.entity, none⟩ ∈ read.elements ∧ ∃ item ∈ request.groupBy, item.via = some read.entity ∧
      manifest.linkedModel? read.entity item.name resolved.anchor.name = some read.model := by
  obtain ⟨first, hcollects, rfl⟩ := hsorted.collects read hmem
  have hwidens := first.widens_widened
  rw [hwidens.entity_eq, hwidens.model_eq]
  refine ⟨hwidens.elements_mem _ ?_, hcollects.found⟩
  rw [hcollects.elements_eq]
  exact List.mem_cons_self

theorem Resolved.Sorted.joined_window
    (hsorted : resolved.Sorted manifest request) (hmem : read ∈ resolved.linked)
    {validity : ValidityWindow} (hwindow : read.model.window = some validity)
    (aliasName : String) (node : Plan) :
    ∃ dimension, resolved.anchor.timeDimension? = some dimension ∧
      resolved.time = some dimension.name ∧
      (read.joined resolved.time aliasName node).window =
        some ⟨aliasName, dimension.name, validity.start, validity.stop⟩ := by
  obtain ⟨dimension, hdimension, htime⟩ := (hsorted.bounded read hmem validity hwindow).time_eq
  refine ⟨dimension, hdimension, htime, ?_⟩
  simp [LinkedRead.joined, LinkedRead.target, hwindow, htime]

theorem Resolved.Sorted.joined_compares
    (hsorted : resolved.Sorted manifest request)
    (hnames : resolved.anchor.elementNames.Nodup)
    (hread : resolved.anchor.read resolved.elements {} = (.ok primary, supply))
    (hmem : read ∈ resolved.linked)
    (hnode : read.model.read read.elements before = (.ok node, after)) :
    (read.joined resolved.time primary.aliasName node).Compares request resolved.anchor read.model
      read.entity primary (AliasSupply.tableAlias resolved.anchor.name 0)
      (AliasSupply.tableAlias read.model.name before.tables) := by
  obtain ⟨hkey, item, hitem, hvia, hmodel⟩ := hsorted.linked_item hmem
  obtain ⟨⟨anchored, hanchored⟩, -⟩ :=
    (Manifest.resolves_iff_of_linked hvia).mp (hsorted.resolves item hitem)
  obtain ⟨⟨entity, hentity⟩, -⟩ := Manifest.linkedModel?_eq_some hmodel
  refine ⟨rfl, ⟨entity, hentity, ?_⟩, ⟨anchored, hanchored, ?_⟩, ?_, ?_⟩
  · obtain ⟨element, helement, hselects⟩ := Model.read_selects hnode hkey
    cases (Model.element?_of_entity? hentity).symm.trans helement
    exact hselects
  · exact hsorted.selects_iff hread (hsorted.link_mem read hmem)
      (Model.element?_of_entity? hanchored)
  · intro hnone
    simp [LinkedRead.joined, LinkedRead.target, hnone]
  · intro validity hvalidity
    obtain ⟨dimension, hdimension, htime, hwindow⟩ :=
      hsorted.joined_window hmem hvalidity primary.aliasName node
    have hbounded := hsorted.bounded read hmem validity hvalidity
    refine ⟨dimension, hdimension, hwindow, ?_, ?_⟩
    · intro bound hbound
      have hmember : ⟨bound, none⟩ ∈ read.elements := by
        rcases List.mem_pair.mp hbound with rfl | rfl
        · exact hbounded.start_mem
        · exact hbounded.stop_mem
      exact Model.read_selects hnode hmember
    · exact hsorted.selects_iff hread (hsorted.time_mem _ htime)
        (Model.element?_of_timeDimension? hnames hdimension)

end Linked

/-- The columns that the join of a built plan compares.  Both sides are as they stand in the
tables, but for a name of the anchor to which the request truncates a dimension: there it is the
truncated dimension that is compared. -/
theorem Manifest.join_columns
    {manifest : Manifest} {request : Request} {plan primary : Plan} {aliasName : String}
    {joined : List (Joined Plan)} {columns : List Column}
    (hmodels : (manifest.models.map (·.name)).Nodup)
    (hnames : ∀ model ∈ manifest.models, model.elementNames.Nodup)
    (h : manifest.plan request = .ok plan)
    (hjoin : .join aliasName primary joined columns ∈ plan.stages) :
    ∃ anchor leftAlias, manifest.Anchors request anchor ∧ primary.ReadsAs anchor leftAlias ∧
      (∀ item ∈ request.groupBy, ∀ grain, item.via = none → item.grain = some grain →
        ∃ dimension, anchor.dimension? item.name = some dimension ∧
          primary.Selects item.columnName
            (.dateTrunc grain (.physical leftAlias dimension.column))) ∧
      ∀ relation ∈ joined, ∃ entity model rightAlias,
        (∃ item ∈ request.groupBy, item.via = some entity ∧
          manifest.linkedModel? entity item.name anchor.name = some model) ∧
        relation.right.ReadsAs model rightAlias ∧
        relation.Compares request anchor model entity primary leftAlias rightAlias := by
  obtain ⟨resolved, supply, hresolve, hread, hjoined⟩ := Manifest.plan_join h hjoin
  obtain ⟨-, hmetrics, hmeasures, -⟩ := Manifest.resolve_eq_ok hresolve
  have hmeasured := Manifest.resolveMeasures_measured hmodels hmeasures
  have hsorted := Manifest.resolve_sorted hresolve
  refine ⟨resolved.anchor, AliasSupply.tableAlias resolved.anchor.name 0,
    hmeasured.anchors hmetrics, Model.read_readsAs hread, ?_, ?_⟩
  · intro item hitem grain hvia hgrain
    rw [GroupItem.columnName_of_local hvia]
    exact Model.read_selects_truncated hread (hsorted.element_mem item hitem hvia) hgrain
  · intro relation hrelation
    obtain ⟨read, hmem, node, before, after, hnode, rfl⟩ := hjoined relation hrelation
    refine ⟨read.entity, read.model, _, (hsorted.linked_item hmem).2, Model.read_readsAs hnode, ?_⟩
    exact hsorted.joined_compares (hnames _ hmeasured.anchor_mem) hread hmem hnode

namespace Sample

/-- Whether the plan is built and joins something. -/
def joins (outcome : Except Failure Plan) : Bool :=
  outcome.toOption.any fun plan => plan.stages.any fun
    | .join _ _ (_ :: _) _ => true
    | _ => false

theorem exists_of_joins {outcome : Except Failure Plan} (h : joins outcome = true) :
    ∃ plan aliasName primary relation rest columns, outcome = .ok plan ∧
      .join aliasName primary (relation :: rest) columns ∈ plan.stages := by
  cases outcome with
  | error failure => cases h
  | ok plan =>
      obtain ⟨stage, hstage, hjoin⟩ := List.any_eq_true.mp h
      split at hjoin
      next => exact ⟨plan, _, _, _, _, _, rfl, hstage⟩
      next => cases hjoin

/-- The only link of the sample request leads to the listings. -/
theorem listings_of_link
    {other : Manifest} {anchor model : Model} {entity : String}
    (hlistings : other.linkedModel? "listing" "country" anchor.name = some listings)
    (h : ∃ item ∈ request.groupBy, item.via = some entity ∧
      other.linkedModel? entity item.name anchor.name = some model) :
    entity = "listing" ∧ model = listings := by
  obtain ⟨item, hitem, hvia, hmodel⟩ := h
  rcases List.mem_pair.mp hitem with rfl | rfl
  · cases hvia
  · cases hvia
    exact ⟨rfl, Option.some.inj (hmodel.symm.trans hlistings)⟩

/-- Bookings lie in the window of the listing by their day, though they are grouped by the month. -/
theorem bookings_join_by_day :
    (manifest.models.map (·.name)).Nodup ∧
      (∀ model ∈ manifest.models, model.elementNames.Nodup) ∧
      ∃ plan aliasName primary relation rest columns leftAlias,
        manifest.plan request = .ok plan ∧
        .join aliasName primary (relation :: rest) columns ∈ plan.stages ∧
        relation.window = some ⟨primary.aliasName, "ds", "since", "until"⟩ ∧
        primary.Selects "ds" (.physical leftAlias "ds") ∧
        primary.Selects "listing" (.physical leftAlias "listing_id") := by
  have hmodels : (manifest.models.map (·.name)).Nodup := by decide
  have hnames : ∀ model ∈ manifest.models, model.elementNames.Nodup := by decide
  have hjoins : joins (manifest.plan request) = true := by decide +kernel
  obtain ⟨plan, aliasName, primary, relation, rest, columns, hplan, hjoin⟩ :=
    exists_of_joins hjoins
  obtain ⟨anchor, leftAlias, hanchors, -, -, hrelations⟩ :=
    Manifest.join_columns hmodels hnames hplan hjoin
  cases hanchors.unique anchors_bookings
  obtain ⟨entity, model, rightAlias, hlink, -, hcompares⟩ :=
    hrelations relation List.mem_cons_self
  obtain ⟨rfl, rfl⟩ := listings_of_link rfl hlink
  obtain ⟨found, hfound, hkey⟩ := hcompares.left_key
  obtain ⟨dimension, hdimension, hwindow, -, htime⟩ := hcompares.window _ rfl
  cases hfound
  cases hdimension
  -- The month has a name of its own.
  have hplain : ¬ request.Truncates "listing" ∧ ¬ request.Truncates "ds" := by
    unfold Request.Truncates
    decide
  exact ⟨hmodels, hnames, plan, aliasName, primary, relation, rest, columns, leftAlias, hplan,
    hjoin, hwindow, htime.mpr hplain.2, hkey.mpr hplain.1⟩

def billingMonth : Dimension :=
  { name := "ds__month", expression := some "billing_month", kind := .time, dataType := .date,
    grain := some .month }

/-- Bookings with the month of the bill, which is their time. -/
def billedBookings : Model := { bookings with dimensions := billingMonth :: bookings.dimensions }

def billedManifest : Manifest := { manifest with models := [billedBookings, listings] }

/-- Nothing has the name of anything else, and yet the month of the day lies in the window of the
listing, and not the month of the bill. -/
theorem billed_join_truncated :
    (billedManifest.models.map (·.name)).Nodup ∧
      (∀ model ∈ billedManifest.models, model.elementNames.Nodup) ∧
      billedBookings.timeDimension? = some billingMonth ∧
      ∃ plan aliasName primary relation rest columns leftAlias,
        billedManifest.plan request = .ok plan ∧
        .join aliasName primary (relation :: rest) columns ∈ plan.stages ∧
        primary.ReadsAs billedBookings leftAlias ∧
        relation.window = some ⟨primary.aliasName, billingMonth.name, "since", "until"⟩ ∧
        primary.Selects billingMonth.name (.dateTrunc .month (.physical leftAlias "ds")) ∧
        ¬ primary.Selects billingMonth.name (.physical leftAlias billingMonth.column) := by
  have hmodels : (billedManifest.models.map (·.name)).Nodup := by decide
  have hnames : ∀ model ∈ billedManifest.models, model.elementNames.Nodup := by decide
  have hjoins : joins (billedManifest.plan request) = true := by decide +kernel
  obtain ⟨plan, aliasName, primary, relation, rest, columns, hplan, hjoin⟩ :=
    exists_of_joins hjoins
  obtain ⟨resolved, supply, hresolve, hread, hjoined⟩ := Manifest.plan_join hplan hjoin
  have hsorted := Manifest.resolve_sorted hresolve
  have hanchor : resolved.anchor = billedBookings := by
    have hname : (billedManifest.resolve request).toOption.map (·.anchor.name) =
        some "bookings" := by decide +kernel
    rw [hresolve] at hname
    obtain ⟨-, -, hmeasures, -⟩ := Manifest.resolve_eq_ok hresolve
    rcases List.mem_pair.mp (Manifest.anchor_mem hmeasures) with heq | heq
    · exact heq
    · have hother : resolved.anchor.name = "bookings" := Option.some.inj hname
      rw [heq] at hother
      exact absurd hother (by decide)
  obtain ⟨read, hmem, node, before, after, hnode, rfl⟩ :=
    hjoined relation List.mem_cons_self
  have hcompares := hsorted.joined_compares (by rw [hanchor]; decide) hread hmem hnode
  obtain ⟨-, hlink⟩ := hsorted.linked_item hmem
  rw [hanchor] at hlink hcompares
  obtain ⟨-, hlistings⟩ := listings_of_link rfl hlink
  obtain ⟨dimension, hdimension, hwindow, -, htime⟩ :=
    hcompares.window ⟨"since", "until"⟩ (by rw [hlistings]; rfl)
  cases hdimension
  have hday : (⟨"ds", some .month⟩ : ElementRef) ∈ resolved.elements :=
    hsorted.element_mem { name := "ds", grain := some .month } (by decide) rfl
  obtain ⟨day, hfound, htruncated⟩ := Model.read_selects_truncated hread hday rfl
  rw [hanchor] at hfound htruncated
  cases hfound
  refine ⟨hmodels, hnames, rfl, plan, aliasName, primary, _, rest, columns, _, hplan, hjoin,
    hanchor ▸ Model.read_readsAs hread, hwindow, htruncated, ?_⟩
  rw [htime, not_not]
  unfold Request.Truncates
  decide

end Sample

end MetricSql
