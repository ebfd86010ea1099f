import MetricSql.Proofs.Plan.Columns
import MetricSql.Proofs.Plan.Scope
import MetricSql.Proofs.Rows.Basic

/-!
# The rows of a join

A built plan joins the linked models to the anchor.  As long as an entity
identifies the rows of each linked model, the join has one row for each row of
the anchor, with the elements of the anchor as they were read and beside them
the elements of the one row that belongs to it in each linked model.
-/

namespace MetricSql

/-! ## Elements of a row -/

namespace Model

/-- The value of an element in a row of the table, without a query. -/
def cell (model : Model) (w : Warehouse) (row : Row) (ref : ElementRef) : Cell :=
  match model.element? ref.name with
  | some (.entity entity) => row.cell entity.column
  | some (.dimension dimension) =>
    match ref.grain with
    | some grain => w.truncate grain (row.cell dimension.column)
    | none => row.cell dimension.column
  | some (.measure measure) =>
    match measure.source with
    | .column column => row.cell column
    | .constant value => some (.number value.toInt)
  | none => none

/-- The elements of a row under the names of their columns. -/
def elementRow (model : Model) (w : Warehouse) (elements : List ElementRef) (row : Row) :
    Row :=
  elements.map fun ref => (ref.columnName, model.cell w row ref)

/-- All elements are columns of the table or constants. -/
structure Plain (model : Model) : Prop where
  entities : ∀ entity ∈ model.entities, Text.isPlain entity.column
  dimensions : ∀ dimension ∈ model.dimensions, Text.isPlain dimension.column
  measures : ∀ measure ∈ model.measures, ∀ column, measure.source = .column column →
    Text.isPlain column

theorem element?_cases {model : Model} {name : String} {element : Element}
    (h : model.element? name = some element) :
    (∃ entity ∈ model.entities, element = .entity entity) ∨
      (∃ dimension ∈ model.dimensions, element = .dimension dimension) ∨
      ∃ measure ∈ model.measures, element = .measure measure := by
  unfold element? at h
  split at h
  next entity hentity =>
    cases h
    exact .inl ⟨entity, (entity?_mem hentity).1, rfl⟩
  next =>
    split at h
    next dimension hdimension =>
      cases h
      exact .inr (.inl ⟨dimension, (dimension?_mem hdimension).1, rfl⟩)
    next =>
      obtain ⟨measure, hmeasure, rfl⟩ := Option.map_eq_some_iff.mp h
      exact .inr (.inr ⟨measure, (measure?_mem hmeasure).1, rfl⟩)

theorem cell_physical (w : Warehouse) (tableAlias : String) (row : Row)
    {column : String} (hplain : Text.isPlain column) :
    (Expr.physical tableAlias column).cell w [[(tableAlias, row)]] [(tableAlias, row)] =
      row.cell column := by
  rw [Expr.physical, if_pos hplain, Expr.cell_of]
  exact Scope.cell_of_mem (by simp) (by simp) column

/-- A column that is bound to an element holds the value of the element. -/
theorem bindElement_cell {model : Model} (hplain : model.Plain) {w : Warehouse}
    {tableAlias : String} {ref : ElementRef} {column : Column} {row : Row}
    (h : model.bindElement tableAlias ref = .ok column) :
    column.expr.cell w [[(tableAlias, row)]] [(tableAlias, row)] = model.cell w row ref := by
  obtain ⟨element, helement, -, rfl⟩ := bindElement_eq_ok.mp h
  rw [cell, helement]
  rcases element?_cases helement with ⟨entity, hmem, rfl⟩ | ⟨dimension, hmem, rfl⟩ |
    ⟨measure, hmem, rfl⟩
  · exact cell_physical w tableAlias row (hplain.entities entity hmem)
  · have hcell := cell_physical w tableAlias row (hplain.dimensions dimension hmem)
    cases hgrain : ref.grain with
    | none => simpa [elementColumn, hgrain] using hcell
    | some grain => simp [elementColumn, hgrain, Expr.cell, hcell]
  · cases hsource : measure.source with
    | column name =>
        simpa [elementColumn, hsource] using
          cell_physical w tableAlias row (hplain.measures measure hmem name hsource)
    | constant value => simp [elementColumn, hsource, Expr.cell]

theorem isAggregate_physical {tableAlias column : String} :
    ∀ part ∈ (Expr.physical tableAlias column).parts, part.isAggregate = false := by
  unfold Expr.physical
  split <;> simp [Expr.of, Expr.parts, Expr.isAggregate]

theorem isAggregate_elementColumn {tableAlias : String} {ref : ElementRef}
    {element : Element} :
    ∀ part ∈ (elementColumn tableAlias ref element).expr.parts,
      part.isAggregate = false := by
  cases element with
  | entity entity => exact isAggregate_physical
  | dimension dimension =>
      cases hgrain : ref.grain with
      | none => simpa [elementColumn, hgrain] using isAggregate_physical
      | some grain =>
          simpa [elementColumn, hgrain, Expr.parts, Expr.isAggregate] using
            isAggregate_physical
  | measure measure =>
      cases hsource : measure.source with
      | column name => simpa [elementColumn, hsource] using isAggregate_physical
      | constant value => simp [elementColumn, hsource, Expr.parts, Expr.isAggregate]

/-- A read selects the elements of every row of the table. -/
theorem read_rows {model : Model} (hplain : model.Plain) {w : Warehouse}
    {elements : List ElementRef} {supply supply' : AliasSupply} {node : Plan}
    (h : model.read elements supply = (.ok node, supply')) :
    node.query.rows w = (w.rows model.table).map (model.elementRow w elements) := by
  obtain ⟨-, columns, hbind, rfl, -⟩ := read_eq_ok.mp h
  have hcolumns := (bindAll_eq_ok.mp hbind).1
  have hrowwise : ∀ column ∈ columns, ∀ part ∈ column.expr.parts,
      part.isAggregate = false := by
    intro column hcolumn
    obtain ⟨ref, -, href⟩ := forall₂_exists_left hcolumns hcolumn
    obtain ⟨element, -, -, rfl⟩ := bindElement_eq_ok.mp href
    exact isAggregate_elementColumn
  rw [Plan.query, Query.rows, project_selectItems hrowwise]
  simp only [joinedScopes, sourceScopes, Relation.rows, Relation.aliasName, Plan.tableRef,
    List.map_map]
  refine List.map_congr_left fun row _ => ?_
  clear hrowwise hbind h
  induction hcolumns with
  | nil => rfl
  | cons href _ ih =>
      rw [Function.comp_apply, List.map_cons, elementRow, List.map_cons,
        bindElement_name href, bindElement_cell hplain href]
      exact congrArg _ ih

theorem map_fst_elementRow (model : Model) (w : Warehouse) (elements : List ElementRef)
    (row : Row) :
    (model.elementRow w elements row).map Prod.fst = elements.map ElementRef.columnName := by
  simp [elementRow]

theorem elementRow_cell {model : Model} {w : Warehouse} {elements : List ElementRef}
    (hnodup : (elements.map ElementRef.columnName).Nodup) {ref : ElementRef}
    (href : ref ∈ elements) (row : Row) :
    (model.elementRow w elements row).cell ref.columnName = model.cell w row ref := by
  apply Row.cell_of_mem
  · rw [map_fst_elementRow]
    exact hnodup
  · exact List.mem_map.mpr ⟨ref, href, rfl⟩

end Model

/-! ## Rows that belong together -/

namespace Model

/-- Whether a row is valid at a time; without a window it always is. -/
def isValid (model : Model) (w : Warehouse) (row : Row) (time : Datum) : Bool :=
  model.window.all fun window =>
    within (model.cell w row ⟨window.start, none⟩)
      (model.cell w row ⟨window.stop, none⟩) time

/-- No two rows with the same entity are valid at the same time. -/
def Identifies (model : Model) (w : Warehouse) (entity : String) : Prop :=
  ∀ value time, ((w.rows model.table).filter fun row =>
    model.cell w row ⟨entity, none⟩ = some value ∧ model.isValid w row time).length ≤ 1

end Model

namespace LinkedRead

/-- Whether a row of the linked model belongs to a row of the anchor: both have
the same entity, and the linked row is valid at the time of the anchor's row. -/
def isPartner (read : LinkedRead) (w : Warehouse) (anchor : Model) (row partner : Row) :
    Bool :=
  (anchor.cell w row ⟨read.entity, none⟩).any (fun value =>
      read.model.cell w partner ⟨read.entity, none⟩ = some value) &&
    (read.model.window.isNone || anchor.timeDimension?.any fun dimension =>
      (anchor.cell w row ⟨dimension.name, none⟩).any (read.model.isValid w partner))

def partner? (read : LinkedRead) (w : Warehouse) (anchor : Model) (row : Row) :
    Option Row :=
  (w.rows read.model.table).find? (read.isPartner w anchor row)

/-- What a linked model adds to a row of the anchor: elements of the partner, and
nulls where there is none. -/
def linkedRow (read : LinkedRead) (w : Warehouse) (anchor : Model) (row : Row) : Row :=
  read.outputs.map fun ref =>
    (qualified read.entity ref.columnName,
      (read.partner? w anchor row).bind fun partner => read.model.cell w partner ref)

/-- Whether a row of the linked model is joined to a left side with this entity and
this time. -/
def admits (read : LinkedRead) (w : Warehouse) (entity time : Cell) (partner : Row) : Bool :=
  entity.any (fun value => read.model.cell w partner ⟨read.entity, none⟩ = some value) &&
    (read.model.window.isNone || time.any (read.model.isValid w partner))

theorem isPartner_eq_admits (read : LinkedRead) (w : Warehouse) (anchor : Model)
    (row : Row) :
    read.isPartner w anchor row =
      read.admits w (anchor.cell w row ⟨read.entity, none⟩)
        (anchor.timeDimension?.bind fun dimension =>
          anchor.cell w row ⟨dimension.name, none⟩) := by
  funext partner
  unfold isPartner admits
  cases anchor.timeDimension? <;> rfl

theorem admits_iff {read : LinkedRead} {w : Warehouse} {entity time : Cell} {partner : Row} :
    read.admits w entity time partner = true ↔
      (∃ value, entity = some value ∧
          read.model.cell w partner ⟨read.entity, none⟩ = some value) ∧
        ∀ window, read.model.window = some window → ∃ moment, time = some moment ∧
          within (read.model.cell w partner ⟨window.start, none⟩)
            (read.model.cell w partner ⟨window.stop, none⟩) moment = true := by
  unfold admits Model.isValid
  cases read.model.window <;>
    simp [Option.any_eq_true]

/-- An entity that identifies rows admits one of them at most. -/
theorem admits_length {read : LinkedRead} {w : Warehouse}
    (h : read.model.Identifies w read.entity) (entity time : Cell) :
    ((w.rows read.model.table).filter (read.admits w entity time)).length ≤ 1 := by
  have hbound : ∀ value moment, (∀ partner, read.admits w entity time partner = true →
      read.model.cell w partner ⟨read.entity, none⟩ = some value ∧
        read.model.isValid w partner moment = true) →
      ((w.rows read.model.table).filter (read.admits w entity time)).length ≤ 1 := by
    intro value moment himp
    refine le_trans ?_ (h value moment)
    rw [← List.countP_eq_length_filter, ← List.countP_eq_length_filter]
    refine List.countP_mono_left fun partner _ hpartner => ?_
    simpa using himp partner hpartner
  by_cases hnone : ∀ partner ∈ w.rows read.model.table,
      read.admits w entity time partner = false
  · have hempty : (w.rows read.model.table).filter (read.admits w entity time) = [] := by
      simpa [List.filter_eq_nil_iff] using hnone
    simp [hempty]
  -- Some row is admitted, so there is an entity, and a time if one is needed.
  · push Not at hnone
    obtain ⟨first, -, hfirst⟩ := hnone
    have hfirst : read.admits w entity time first = true := by simpa using hfirst
    obtain ⟨⟨value, rfl, -⟩, hmoment⟩ := admits_iff.mp hfirst
    have hentity : ∀ partner, read.admits w (some value) time partner = true →
        read.model.cell w partner ⟨read.entity, none⟩ = some value := by
      intro partner hpartner
      obtain ⟨⟨other, hother, hcell⟩, -⟩ := admits_iff.mp hpartner
      cases hother
      exact hcell
    cases hwindow : read.model.window with
    | none =>
        refine hbound value (.truth true) fun partner hpartner =>
          ⟨hentity partner hpartner, ?_⟩
        simp [Model.isValid, hwindow]
    | some window =>
        obtain ⟨moment, rfl, -⟩ := hmoment window hwindow
        refine hbound value moment fun partner hpartner => ⟨hentity partner hpartner, ?_⟩
        obtain ⟨-, hvalid⟩ := admits_iff.mp hpartner
        obtain ⟨other, hother, hwithin⟩ := hvalid window hwindow
        cases hother
        simpa [Model.isValid, hwindow] using hwithin

theorem partners_length {read : LinkedRead} {w : Warehouse}
    (h : read.model.Identifies w read.entity) (anchor : Model) (row : Row) :
    ((w.rows read.model.table).filter (read.isPartner w anchor row)).length ≤ 1 := by
  rw [isPartner_eq_admits]
  exact admits_length h _ _

/-- The partner is the only row that belongs to the row of the anchor. -/
theorem partner?_eq_some {read : LinkedRead} {w : Warehouse} {anchor : Model}
    {row partner : Row} (h : read.model.Identifies w read.entity)
    (hmem : partner ∈ w.rows read.model.table)
    (hpartner : read.isPartner w anchor row partner = true) :
    read.partner? w anchor row = some partner := by
  have hlength := partners_length h anchor row
  have hfilter : partner ∈ (w.rows read.model.table).filter (read.isPartner w anchor row) :=
    List.mem_filter.mpr ⟨hmem, hpartner⟩
  rw [partner?, ← List.head?_filter]
  cases hrows : (w.rows read.model.table).filter (read.isPartner w anchor row) with
  | nil =>
      rw [hrows] at hfilter
      cases hfilter
  | cons first rest =>
      rw [hrows] at hlength hfilter
      have hrest : rest = [] := List.length_eq_zero_iff.mp (by simpa using hlength)
      rw [hrest, List.mem_singleton] at hfilter
      rw [hfilter]
      rfl

end LinkedRead

/-! ## Joining the linked models -/

theorem forall₂_zipWith_mem {α β γ : Type} {R : α → β → Prop} (f : α → β → γ)
    {xs : List α} {ys : List β} (h : List.Forall₂ R xs ys) :
    List.Forall₂ (fun x y => R x y ∧ f x y ∈ List.zipWith f xs ys) xs ys := by
  induction h with
  | nil => exact .nil
  | cons hxy _ ih =>
      refine .cons ⟨hxy, by simp⟩ (ih.imp ?_)
      rintro x y ⟨hR, hmem⟩
      exact ⟨hR, List.mem_cons_of_mem _ hmem⟩

namespace LinkedRead

/-- A linked model that can be joined to the `elements` of the anchor: what the
conditions compare is read on both sides. -/
structure Joinable (w : Warehouse) (anchor : Model) (elements : List ElementRef)
    (time : Option String) (read : LinkedRead) : Prop where
  plain : read.model.Plain
  identifies : read.model.Identifies w read.entity
  key_mem : ⟨read.entity, none⟩ ∈ read.elements
  link_mem : ⟨read.entity, none⟩ ∈ elements
  bounded : ∀ window, read.model.window = some window → Bounded anchor time read window
  time_mem : ∀ name, time = some name → ⟨name, none⟩ ∈ elements

/-- The elements of the partner, no columns where there is none. -/
def partnerRow (w : Warehouse) (anchor : Model) (row : Row) (read : LinkedRead) : Row :=
  ((read.partner? w anchor row).map (read.model.elementRow w read.elements)).getD []

section Conditions

variable {w : Warehouse} {anchor : Model} {elements : List ElementRef}
  {time : Option String} {read : LinkedRead} {node : Plan} {primary : String}
  {scope : Scope} {row : Row}

/-- The conditions of the join compare a row of the linked model with the entity and
the time on the left side, whatever these are. -/
theorem conditions_hold_iff
    (hnames : (read.elements.map ElementRef.columnName).Nodup)
    (hkey : ⟨read.entity, none⟩ ∈ read.elements)
    (hbounded : ∀ window, read.model.window = some window →
      Bounded anchor time read window)
    (hprimary : primary ≠ node.aliasName) (halias : node.aliasName ∉ scope.map Prod.fst)
    (partner : Row) :
    ((Plan.conditions node.aliasName (read.joined time primary node).keys
        (read.joined time primary node).window).all
      (Expr.holds w
        (scope ++ [(node.aliasName, read.model.elementRow w read.elements partner)]))) =
      read.admits w (scope.cell primary read.entity)
        (time.bind (scope.cell primary ·)) partner := by
  set extended := scope ++ [(node.aliasName, read.model.elementRow w read.elements partner)]
    with hextended
  have hleft : ∀ name, extended.cell primary name = scope.cell primary name :=
    Scope.cell_concat_of_ne hprimary.symm
  have hright : ∀ ref ∈ read.elements,
      extended.cell node.aliasName ref.columnName = read.model.cell w partner ref := by
    intro ref href
    rw [hextended, Scope.cell_concat halias, Model.elementRow_cell hnames href]
  have hkeyHolds : (Plan.keyCondition node.aliasName
        ⟨read.entity, primary, read.entity, read.entity⟩).holds w extended = true ↔
      ∃ value, scope.cell primary read.entity = some value ∧
        read.model.cell w partner ⟨read.entity, none⟩ = some value := by
    rw [Plan.keyCondition_holds, hleft, ← hright _ hkey]
    rfl
  rw [Bool.eq_iff_iff, admits_iff]
  refine Plan.conditions_hold.trans (and_congr hkeyHolds ?_)
  constructor
  · intro hwindows validity hvalidity
    have hbounds := hbounded validity hvalidity
    obtain ⟨dimension, -, rfl⟩ := hbounds.time_eq
    have htarget : (read.target (some dimension.name) node).window =
        some ⟨dimension.name, validity.start, validity.stop⟩ :=
      target_window_eq_some.mpr ⟨hvalidity, rfl⟩
    have hwindow := hwindows ⟨primary, dimension.name, validity.start, validity.stop⟩
      (by simp [joined, htarget])
    obtain ⟨moment, hmoment, hwithin⟩ := Plan.windowConditions_hold.mp hwindow
    refine ⟨moment, ?_, ?_⟩
    · rw [Option.bind_some, ← hleft]
      exact hmoment
    · rw [← hright _ hbounds.start_mem, ← hright _ hbounds.stop_mem]
      exact hwithin
  · intro hvalid found hfound
    obtain ⟨window, hwindow, rfl⟩ := Option.map_eq_some_iff.mp hfound
    obtain ⟨hmodel, rfl⟩ := target_window_eq_some.mp hwindow
    have hbounds := hbounded _ hmodel
    obtain ⟨moment, hmoment, hwithin⟩ := hvalid _ hmodel
    refine Plan.windowConditions_hold.mpr ⟨moment, ?_, ?_⟩
    · rw [hleft]
      exact hmoment
    · rw [← hright _ hbounds.start_mem, ← hright _ hbounds.stop_mem] at hwithin
      exact hwithin

/-- In the scope of a row of the anchor the conditions hold for exactly the rows that
belong to it. -/
theorem conditions_hold_iff_isPartner (hread : read.Joinable w anchor elements time)
    (helements : (elements.map ElementRef.columnName).Nodup)
    (hnames : (read.elements.map ElementRef.columnName).Nodup)
    (hscope : (primary, anchor.elementRow w elements row) ∈ scope)
    (haliases : (scope.map Prod.fst ++ [node.aliasName]).Nodup) (partner : Row) :
    ((Plan.conditions node.aliasName (read.joined time primary node).keys
        (read.joined time primary node).window).all
      (Expr.holds w
        (scope ++ [(node.aliasName, read.model.elementRow w read.elements partner)]))) =
      read.isPartner w anchor row partner := by
  obtain ⟨hnodup, -, hdisjoint⟩ := List.nodup_append.mp haliases
  have halias : node.aliasName ∉ scope.map Prod.fst := by
    intro hmem
    exact hdisjoint _ hmem _ List.mem_cons_self rfl
  have hprimary : primary ≠ node.aliasName := by
    rintro rfl
    exact halias (List.mem_map_of_mem hscope)
  have hleft : ∀ ref ∈ elements,
      scope.cell primary ref.columnName = anchor.cell w row ref := by
    intro ref href
    rw [Scope.cell_of_mem hnodup hscope, Model.elementRow_cell helements href]
  rw [conditions_hold_iff hnames hread.key_mem hread.bounded hprimary halias,
    isPartner_eq_admits, ← hleft _ hread.link_mem]
  cases hwindow : read.model.window with
  | none => simp [admits, hwindow, ElementRef.columnName]
  | some window =>
      obtain ⟨dimension, hdimension, rfl⟩ := (hread.bounded window hwindow).time_eq
      rw [hdimension, Option.bind_some, Option.bind_some,
        ← hleft _ (hread.time_mem _ rfl)]
      rfl

/-- Joining a linked model puts the elements of the partner beside the row. -/
theorem joinRow_linked (hread : read.Joinable w anchor elements time)
    (helements : (elements.map ElementRef.columnName).Nodup)
    (hnames : (read.elements.map ElementRef.columnName).Nodup)
    (hrows : node.query.rows w =
      (w.rows read.model.table).map (read.model.elementRow w read.elements))
    (hscope : (primary, anchor.elementRow w elements row) ∈ scope)
    (haliases : (scope.map Prod.fst ++ [node.aliasName]).Nodup) :
    joinRow w .leftOuter
        (Plan.conditions node.aliasName (read.joined time primary node).keys
          (read.joined time primary node).window)
        node.aliasName (node.query.rows w) scope =
      [scope ++ [(node.aliasName, read.partnerRow w anchor row)]] := by
  set on := Plan.conditions node.aliasName (read.joined time primary node).keys
    (read.joined time primary node).window
  have hpartners : partners w on node.aliasName (node.query.rows w) scope =
      ((w.rows read.model.table).filter (read.isPartner w anchor row)).map
        (read.model.elementRow w read.elements) := by
    rw [partners, hrows, List.filter_map]
    congr 1
    refine List.filter_congr fun partner _ => ?_
    exact conditions_hold_iff_isPartner hread helements hnames hscope haliases partner
  have hlength : (partners w on node.aliasName (node.query.rows w) scope).length ≤ 1 := by
    rw [hpartners, List.length_map]
    exact partners_length hread.identifies anchor row
  rw [joinRow_leftOuter hlength, hpartners, partnerRow, partner?,
    List.headD_eq_head?_getD, List.head?_map, List.head?_filter]

end Conditions

theorem joinedQueries_cons (first : Joined Plan) (rest : List (Joined Plan)) :
    Plan.joinedQueries (first :: rest) =
      ⟨first.kind, .subquery first.right.query first.right.aliasName,
        Plan.conditions first.right.aliasName first.keys first.window⟩ ::
        Plan.joinedQueries rest := by
  rw [Plan.joinedQueries]

/-- The relation of a linked model in the scope of a row of the anchor. -/
def scopeEntry (w : Warehouse) (anchor : Model) (row : Row) (read : LinkedRead)
    (target : JoinTarget) : String × Row :=
  (target.node.aliasName, read.partnerRow w anchor row)

/-- The relations of a join for one row of the anchor. -/
def joinScope (w : Warehouse) (anchor : Model) (elements : List ElementRef)
    (primary : String) (reads : List LinkedRead) (targets : List JoinTarget) (row : Row) :
    Scope :=
  (primary, anchor.elementRow w elements row) ::
    List.zipWith (scopeEntry w anchor row) reads targets

/-- All linked models are joined, one after the other: no row is lost or repeated. -/
theorem joinedScopes_linked {w : Warehouse} {anchor : Model} {elements : List ElementRef}
    {time : Option String} {primary : String} {reads : List LinkedRead}
    {targets : List JoinTarget} (htargets : List.Forall₂ (IsTarget time) reads targets)
    (hreads : ∀ read ∈ reads, read.Joinable w anchor elements time)
    (helements : (elements.map ElementRef.columnName).Nodup) (rows : List Row)
    (scopeOf : Row → Scope)
    (hscope : ∀ row, (primary, anchor.elementRow w elements row) ∈ scopeOf row)
    (haliases : ∀ row,
      ((scopeOf row).map Prod.fst ++ targets.map (·.node.aliasName)).Nodup) :
    joinedScopes w (rows.map scopeOf) (Plan.joinedQueries
        (List.zipWith (fun read target => read.joined time primary target.node)
          reads targets)) =
      rows.map fun row =>
        scopeOf row ++ List.zipWith (scopeEntry w anchor row) reads targets := by
  induction htargets generalizing scopeOf with
  | nil => simp [Plan.joinedQueries, joinedScopes]
  | @cons read target reads targets htarget _ ih =>
      obtain ⟨node, before, after, hnode, rfl⟩ := htarget
      have hread := hreads read List.mem_cons_self
      obtain ⟨hcolumns, hnames⟩ := Model.read_columnNames hnode
      rw [hcolumns] at hnames
      -- The scopes after this join, which still hold the row of the anchor.
      have hstep : (rows.map scopeOf).flatMap (joinRow w .leftOuter
          (Plan.conditions node.aliasName (read.joined time primary node).keys
            (read.joined time primary node).window) node.aliasName (node.query.rows w)) =
          rows.map fun row =>
            scopeOf row ++ [(node.aliasName, read.partnerRow w anchor row)] := by
        rw [List.flatMap_map, List.map_eq_flatMap]
        congr 1
        funext row
        refine joinRow_linked hread helements hnames (Model.read_rows hread.plain hnode)
          (hscope row) ((haliases row).sublist ?_)
        exact (List.Sublist.refl _).append (by simp [target])
      have hrest := ih (fun other hother => hreads other (List.mem_cons_of_mem _ hother))
        (fun row => scopeOf row ++ [(node.aliasName, read.partnerRow w anchor row)])
        (fun row => List.mem_append_left _ (hscope row))
        (fun row => by simpa [target] using haliases row)
      rw [List.zipWith_cons_cons, joinedQueries_cons, joinedScopes, Relation.aliasName,
        Relation.rows]
      refine Eq.trans (congrArg (joinedScopes w · _) hstep) (hrest.trans ?_)
      simp [target, scopeEntry]

/-! ## The columns of the join -/

theorem partnerRow_cell {w : Warehouse} {anchor : Model} {read : LinkedRead}
    (hnames : (read.elements.map ElementRef.columnName).Nodup) {ref : ElementRef}
    (href : ref ∈ read.elements) (row : Row) :
    (read.partnerRow w anchor row).cell ref.columnName =
      (read.partner? w anchor row).bind fun partner => read.model.cell w partner ref := by
  unfold partnerRow
  cases read.partner? w anchor row with
  | none => rfl
  | some partner => exact Model.elementRow_cell hnames href partner

theorem gains_row {w : Warehouse} {anchor : Model} {time : Option String}
    {read : LinkedRead} {target : JoinTarget} {scope : Scope} {row : Row}
    (htarget : IsTarget time read target)
    (hcell : ∀ name, scope.cell target.node.aliasName name =
      (read.partnerRow w anchor row).cell name) :
    (target.gains.map fun left => (left.name, scope.cell left.aliasName left.column)) =
      read.linkedRow w anchor row := by
  obtain ⟨node, before, after, hnode, rfl⟩ := htarget
  obtain ⟨hcolumns, hnodup⟩ := Model.read_columnNames hnode
  rw [hcolumns] at hnodup
  calc
    _ = (node.columnNames.filter fun name => name != read.entity).map fun name =>
          (qualified read.entity name, scope.cell node.aliasName name) := by
        simp [JoinTarget.gains, JoinTarget.contributed, JoinTarget.rename, target,
          LeftColumn.ofColumn, Plan.columnNames, List.filter_map, Function.comp_def,
          bne, beq_eq_decide]
    _ = read.outputs.map fun ref =>
          (qualified read.entity ref.columnName,
            scope.cell node.aliasName ref.columnName) := by
        simp [hcolumns, outputs, List.filter_map, Function.comp_def]
    _ = read.linkedRow w anchor row := by
        refine List.map_congr_left fun ref href => ?_
        rw [← partnerRow_cell hnodup (List.mem_of_mem_filter href) row, ← hcell]
        rfl

theorem map_fst_zipWith {w : Warehouse} {anchor : Model} {time : Option String} {row : Row}
    {reads : List LinkedRead} {targets : List JoinTarget}
    (htargets : List.Forall₂ (IsTarget time) reads targets) :
    (List.zipWith (scopeEntry w anchor row) reads targets).map Prod.fst =
      targets.map (·.node.aliasName) := by
  induction htargets with
  | nil => rfl
  | cons _ _ ih => rw [List.zipWith_cons_cons, List.map_cons, ih, List.map_cons, scopeEntry]

theorem flatMap_gains_row {w : Warehouse} {anchor : Model} {time : Option String}
    {reads : List LinkedRead} {targets : List JoinTarget} {scope : Scope} {row : Row}
    (htargets : List.Forall₂ (fun read target => IsTarget time read target ∧
      ∀ name, scope.cell target.node.aliasName name =
        (read.partnerRow w anchor row).cell name) reads targets) :
    ((targets.flatMap JoinTarget.gains).map fun left =>
        (left.name, scope.cell left.aliasName left.column)) =
      reads.flatMap (·.linkedRow w anchor row) := by
  induction htargets with
  | nil => rfl
  | cons htarget _ ih =>
      rw [List.flatMap_cons, List.map_append, gains_row htarget.1 htarget.2, ih,
        List.flatMap_cons]

end LinkedRead

theorem Model.leftColumns_row {anchor : Model} {w : Warehouse} {elements : List ElementRef}
    {supply supply' : AliasSupply} {primary : Plan} {scope : Scope} {row : Row}
    (hread : anchor.read elements supply = (.ok primary, supply'))
    (hcell : ∀ name, scope.cell primary.aliasName name =
      (anchor.elementRow w elements row).cell name) :
    (primary.leftColumns.map fun left =>
        (left.name, scope.cell left.aliasName left.column)) =
      anchor.elementRow w elements row := by
  obtain ⟨hcolumns, hnodup⟩ := Model.read_columnNames hread
  rw [hcolumns] at hnodup
  calc
    _ = primary.columnNames.map fun name =>
          (name, scope.cell primary.aliasName name) := by
        simp [Plan.leftColumns, LeftColumn.ofColumn, Plan.columnNames, Function.comp_def]
    _ = elements.map fun ref =>
          (ref.columnName, scope.cell primary.aliasName ref.columnName) := by
        simp [hcolumns, Function.comp_def]
    _ = anchor.elementRow w elements row := by
        refine List.map_congr_left fun ref href => ?_
        rw [hcell, Model.elementRow_cell hnodup href]

/-- The columns of a join in the scope of one row of the anchor. -/
theorem LinkedRead.joinScope_row {w : Warehouse} {anchor : Model}
    {elements : List ElementRef} {time : Option String} {supply supply' : AliasSupply}
    {primary : Plan} {reads : List LinkedRead} {targets : List JoinTarget}
    (htargets : List.Forall₂ (IsTarget time) reads targets)
    (hread : anchor.read elements supply = (.ok primary, supply'))
    (haliases : (primary.aliasName :: targets.map (·.node.aliasName)).Nodup) (row : Row) :
    ((primary.leftColumns ++ targets.flatMap JoinTarget.gains).map fun source =>
      (source.name, (joinScope w anchor elements primary.aliasName reads targets row).cell
        source.aliasName source.column)) =
      anchor.elementRow w elements row ++ reads.flatMap (·.linkedRow w anchor row) := by
  set scope := joinScope w anchor elements primary.aliasName reads targets row with hscope
  have hdistinct : (scope.map Prod.fst).Nodup := by
    rw [hscope, joinScope, List.map_cons, map_fst_zipWith htargets]
    exact haliases
  have hanchor : ∀ name, scope.cell primary.aliasName name =
      (anchor.elementRow w elements row).cell name :=
    Scope.cell_of_mem hdistinct List.mem_cons_self
  have hlinked : List.Forall₂ (fun read target => IsTarget time read target ∧
      ∀ name, scope.cell target.node.aliasName name =
        (read.partnerRow w anchor row).cell name) reads targets := by
    refine (forall₂_zipWith_mem (scopeEntry w anchor row) htargets).imp ?_
    rintro read target ⟨htarget, hentry⟩
    exact ⟨htarget, Scope.cell_of_mem hdistinct (List.mem_cons_of_mem _ hentry)⟩
  rw [List.map_append, Model.leftColumns_row hread hanchor, flatMap_gains_row hlinked]

/-! ## Built plans -/

section Built

variable {resolved : Resolved} {primary : Plan} {targets : List JoinTarget}
  {s₁ s₂ s₃ : AliasSupply}

theorem Resolved.join_rows {w : Warehouse} {joined : List (Joined Plan)}
    {left : List LeftColumn} {aliasName : String}
    (hanchor : resolved.anchor.Plain)
    (hlinked : ∀ read ∈ resolved.linked,
      read.Joinable w resolved.anchor resolved.elements resolved.time)
    (htime : ∀ name, resolved.time = some name → ⟨name, none⟩ ∈ resolved.elements)
    (hread : resolved.anchor.read resolved.elements {} = (.ok primary, s₁))
    (hreads : LinkedRead.readAll resolved.time resolved.linked s₁ = .ok (targets, s₂))
    (hattach : JoinTarget.attachAll primary.aliasName primary.leftColumns targets =
      .ok (left, joined)) :
    (Plan.join aliasName primary joined (left.map LeftColumn.toColumn)).query.rows w =
      (w.rows resolved.anchor.table).map fun row =>
        resolved.anchor.elementRow w resolved.elements row ++
          resolved.linked.flatMap (·.linkedRow w resolved.anchor row) := by
  have htargets := (LinkedRead.readAll_eq_ok hreads).1
  obtain ⟨hcolumns, hnodup⟩ := Model.read_columnNames hread
  have hmem : ∀ name, ⟨name, none⟩ ∈ resolved.elements → name ∈ primary.columnNames := by
    intro name hname
    rw [hcolumns]
    exact List.mem_map.mpr ⟨_, hname, rfl⟩
  rw [hcolumns] at hnodup
  have hleft := JoinTarget.attachAll_left hattach
  have hjoined : joined = List.zipWith (fun read target =>
      read.joined resolved.time primary.aliasName target.node) resolved.linked targets := by
    rw [← List.append_nil primary.leftColumns] at hattach
    exact LinkedRead.attachAll_targets htargets
      (fun read hmember => hmem _ (hlinked read hmember).link_mem)
      (fun name hname => hmem name (htime name hname)) hattach
  have haliases := Resolved.aliases_nodup hread hreads
  have hscopes := LinkedRead.joinedScopes_linked htargets hlinked hnodup
    (w.rows resolved.anchor.table)
    (fun row => [(primary.aliasName,
      resolved.anchor.elementRow w resolved.elements row)])
    (fun row => List.mem_singleton.mpr rfl) (fun row => haliases)
  have hcolumn : ∀ scope, ((fun column : Column =>
      (column.name, column.expr.cell w [scope] scope)) ∘ LeftColumn.toColumn) =
      fun source => (source.name, Scope.cell scope source.aliasName source.column) := by
    intro scope
    funext source
    rw [Function.comp_apply, LeftColumn.toColumn, Expr.cell_of]
  have hrowwise : ∀ column ∈ left.map LeftColumn.toColumn,
      ∀ part ∈ column.expr.parts, part.isAggregate = false := by
    intro column hcolumn part hpart
    obtain ⟨source, -, rfl⟩ := List.mem_map.mp hcolumn
    rw [LeftColumn.toColumn, Expr.of, Expr.parts, List.mem_singleton] at hpart
    rw [hpart]
    rfl
  rw [Plan.query, Query.rows, project_selectItems hrowwise, sourceScopes, Relation.rows,
    Relation.aliasName, Model.read_rows hanchor hread, List.map_map, hjoined]
  refine Eq.trans (congrArg _ hscopes) ?_
  rw [List.map_map]
  refine List.map_congr_left fun row _ => ?_
  rw [Function.comp_apply, List.map_map, hcolumn, hleft]
  exact LinkedRead.joinScope_row htargets hread haliases row

/-- The only join of a built plan is that of the anchor with the linked models. -/
theorem Resolved.plan_join {plan left : Plan} {aliasName : String}
    {joined : List (Joined Plan)} {columns : List Column}
    (hplan : resolved.plan = .ok plan)
    (hjoin : .join aliasName left joined columns ∈ plan.stages) :
    ∃ targets s₁ s₂,
      resolved.anchor.read resolved.elements {} = (.ok left, s₁) ∧
        LinkedRead.readAll resolved.time resolved.linked s₁ = .ok (targets, s₂) ∧
        ∃ leftColumns,
          JoinTarget.attachAll left.aliasName left.leftColumns targets =
              .ok (leftColumns, joined) ∧
            columns = leftColumns.map LeftColumn.toColumn := by
  obtain ⟨primary, targets, stage, aggregated, s₁, s₂, s₃, s₄, s₅, hread, hreads, hstage,
    haggregate, hmetrics⟩ := Resolved.plan_eq_ok hplan
  obtain ⟨_, -, rfl, -⟩ := Plan.aggregateBy_eq_ok haggregate
  obtain ⟨_, _, -, rfl, -⟩ := Plan.computeMetrics_eq_ok hmetrics
  have hmem : .join aliasName left joined columns ∈ stage.stages := by
    simpa [Plan.stages] using hjoin
  -- Below the join there are only reads.
  have hleaf : ∀ {model elements supply supply'} {node : Plan},
      Model.read model elements supply = (.ok node, supply') →
      .join aliasName left joined columns ∉ node.stages := by
    intro model elements supply supply' node hnode
    rw [Model.read_stages hnode]
    obtain ⟨-, _, -, rfl, -⟩ := Model.read_eq_ok.mp hnode
    simp
  rcases Plan.joinTargets_eq_ok hstage with ⟨-, rfl, -⟩ | ⟨found, -, hattach, -, rfl, -⟩
  · exact absurd hmem (hleaf hread)
  · rw [Plan.stages_eq, List.mem_cons] at hmem
    rcases hmem with heq | hbelow
    · cases heq
      exact ⟨targets, s₁, s₂, hread, hreads, _, hattach, rfl⟩
    · obtain ⟨child, hchild, hstages⟩ := List.mem_flatMap.mp hbelow
      rcases List.mem_cons.mp hchild with rfl | hchild
      · exact absurd hstages (hleaf hread)
      · simp only [JoinTarget.attachAll_right hattach, List.mem_map] at hchild
        obtain ⟨target, htarget, rfl⟩ := hchild
        obtain ⟨read, -, node, before, after, hnode, rfl⟩ :=
          forall₂_exists_left (LinkedRead.readAll_eq_ok hreads).1 htarget
        exact absurd hstages (hleaf hnode)

end Built

/-! ## Requests -/

/-- What the rows of a join are said of: models without raw expressions, whose
names tell them and their elements apart. -/
structure Manifest.Regular (manifest : Manifest) : Prop where
  plain : ∀ model ∈ manifest.models, model.Plain
  models : (manifest.models.map (·.name)).Nodup
  elements : ∀ model ∈ manifest.models, model.elementNames.Nodup
  unqualified : ∀ model ∈ manifest.models, ∀ name ∈ model.elementNames, Unqualified name

/-- A dimension of a linked model is never taken for the entity it is linked
through. -/
theorem Manifest.Regular.columnName_ne {manifest : Manifest} (hmanifest : manifest.Regular)
    {item : GroupItem} {entity exclude : String} {model : Model}
    (h : manifest.linkedModel? entity item.name exclude = some model) :
    item.element.columnName ≠ entity := by
  intro heq
  have hmem := Manifest.linkedModel?_mem h
  have hfound := List.find?_some h
  simp only [Bool.and_eq_true, Model.isIdentifiedBy, Option.any_eq_true,
    Option.isSome_iff_exists] at hfound
  obtain ⟨⟨-, found, hentity, -⟩, dimension, hdimension⟩ := hfound
  have hname := Model.name_mem_of_entity? hentity
  have hunqualified := hmanifest.unqualified model hmem entity hname
  have href := ElementRef.eq_of_columnName hunqualified heq
  have hitem : item.name = entity := congrArg ElementRef.name href
  -- The entity and the dimension would have one name in one model.
  obtain ⟨hentityMem, rfl⟩ := Model.entity?_mem hentity
  obtain ⟨hdimensionMem, hdimensionName⟩ := Model.dimension?_mem hdimension
  have hnodup := hmanifest.elements model hmem
  rw [Model.elementNames, List.nodup_append, List.nodup_append] at hnodup
  exact hnodup.1.2.2 _ (List.mem_map_of_mem hentityMem) _
    (List.mem_map_of_mem hdimensionMem) (hdimensionName.trans hitem).symm

/-- Every group item is read where it belongs: from the anchor, or from the model
that it is linked to. -/
structure Resolved.Serves (manifest : Manifest) (request : Request)
    (resolved : Resolved) : Prop where
  element_mem : ∀ item ∈ request.groupBy, item.via = none →
    item.element ∈ resolved.elements
  output_mem : ∀ item ∈ request.groupBy, ∀ entity, item.via = some entity →
    ∃ read ∈ resolved.linked, read.entity = entity ∧
      manifest.linkedModel? entity item.name resolved.anchor.name = some read.model ∧
      item.element ∈ read.outputs ∧
      item.columnName = qualified entity item.element.columnName

theorem Resolved.Complete.resolved_serves {manifest : Manifest} {request : Request}
    {resolved : Resolved} (hmanifest : manifest.Regular)
    (h : resolved.Complete manifest request) : resolved.Serves manifest request := by
  refine ⟨h.element_mem, ?_⟩
  intro item hitem entity hvia
  obtain ⟨model, hmodel, read, hread, hentity, rfl, helement⟩ :=
    h.serves item hitem entity hvia
  refine ⟨read, hread, hentity, hmodel, ?_, GroupItem.columnName_eq_qualified hvia⟩
  have hne := hmanifest.columnName_ne hmodel
  rw [← hentity] at hne
  exact List.mem_filter.mpr ⟨helement, by simpa using hne⟩

/-- The join of a built plan has one row for each row of the anchor's table.  It
keeps what is read from the anchor, and beside it has the elements of the one row
of each linked model that belongs to it, or nulls where there is none. -/
theorem Manifest.plan_join_rows {manifest : Manifest} (hmanifest : manifest.Regular)
    {request : Request} {plan left : Plan} {aliasName : String}
    {joined : List (Joined Plan)} {columns : List Column}
    (hplan : manifest.plan request = .ok plan)
    (hjoin : .join aliasName left joined columns ∈ plan.stages) :
    ∃ resolved, manifest.resolve request = .ok resolved ∧
      resolved.Serves manifest request ∧
      ∀ w : Warehouse,
        (∀ read ∈ resolved.linked, read.model.Identifies w read.entity) →
        left.query.rows w = (w.rows resolved.anchor.table).map
            (resolved.anchor.elementRow w resolved.elements) ∧
          (Plan.join aliasName left joined columns).query.rows w =
            (w.rows resolved.anchor.table).map (fun row =>
              resolved.anchor.elementRow w resolved.elements row ++
                resolved.linked.flatMap (·.linkedRow w resolved.anchor row)) ∧
          ∀ read ∈ resolved.linked, ∀ row partner,
            partner ∈ w.rows read.model.table →
            read.isPartner w resolved.anchor row partner = true →
            read.partner? w resolved.anchor row = some partner := by
  simp only [Manifest.plan, bind_eq_ok] at hplan
  obtain ⟨resolved, hresolve, hplan⟩ := hplan
  have hcomplete := Manifest.resolve_complete hmanifest.models hmanifest.unqualified hresolve
  obtain ⟨targets, s₁, s₂, hread, hreads, leftColumns, hattach, rfl⟩ :=
    Resolved.plan_join hplan hjoin
  have hanchor := hmanifest.plain _ hcomplete.anchor_mem
  refine ⟨resolved, hresolve, hcomplete.resolved_serves hmanifest, ?_⟩
  intro w hidentifies
  have hjoinable : ∀ read ∈ resolved.linked,
      read.Joinable w resolved.anchor resolved.elements resolved.time := by
    intro read hmem
    exact ⟨hmanifest.plain _ (hcomplete.model_mem read hmem), hidentifies read hmem,
      hcomplete.key_mem read hmem, hcomplete.link_mem read hmem,
      hcomplete.bounded read hmem, hcomplete.time_mem⟩
  refine ⟨Model.read_rows hanchor hread, ?_, ?_⟩
  · exact Resolved.join_rows hanchor hjoinable hcomplete.time_mem hread hreads hattach
  · intro read hmem row partner hpartner hbelongs
    exact LinkedRead.partner?_eq_some (hidentifies read hmem) hpartner hbelongs

/-! ## A listing that moves -/

namespace Sample

/-- The listing until the tenth day. -/
def early : Row :=
  [("id", some (.number 1)), ("country", some (.text "NZ")),
    ("since", some (.moment 0)), ("until", some (.moment 10))]

/-- The same listing from then on. -/
def late : Row :=
  [("id", some (.number 1)), ("country", some (.text "FJ")),
    ("since", some (.moment 10)), ("until", none)]

/-- Three bookings, the last of no listing. -/
def warehouse : Warehouse where
  rows table :=
    if table = bookings.table then
      [[("listing_id", some (.number 1)), ("ds", some (.moment 5)),
          ("Amount", some (.number 7))],
        [("listing_id", some (.number 1)), ("ds", some (.moment 10)), ("Amount", none)],
        [("listing_id", none), ("ds", some (.moment 3)), ("Amount", some (.number 2))]]
    else if table = listings.table then [early, late]
    else []
  truncate _ cell := cell
  function _ _ := none
  aggregate _ _ := none
  percentile _ _ _ _ := none
  raw _ _ := none

theorem manifest_regular : manifest.Regular where
  plain := by
    intro model hmodel
    simp only [manifest, List.mem_cons, List.not_mem_nil, or_false] at hmodel
    rcases hmodel with rfl | rfl
    · exact ⟨by decide, by decide, by simp [bookings]; decide⟩
    · exact ⟨by decide, by decide, by simp [listings]⟩
  models := by decide
  elements := by decide
  unqualified := by
    unfold Unqualified
    decide

theorem listings_identifies : listings.Identifies warehouse "listing" := by
  intro value time
  have hrows : warehouse.rows listings.table = [early, late] := by decide
  have hearly : listings.isValid warehouse early time = true →
      Datum.less? time (.moment 10) = some true := by
    have hwindow : listings.isValid warehouse early time =
        within (some (.moment 0)) (some (.moment 10)) time := rfl
    simp [hwindow, within]
  have hlate : listings.isValid warehouse late time = true →
      Datum.less? time (.moment 10) = some false := by
    have hwindow : listings.isValid warehouse late time =
        within (some (.moment 10)) none time := rfl
    simp [hwindow, within]
  rw [hrows]
  by_cases hvalid : listings.isValid warehouse early time = true
  · have hnot : ¬ listings.isValid warehouse late time = true := by
      intro h
      rw [hearly hvalid] at hlate
      simpa using hlate h
    rw [List.filter_cons, List.filter_cons_of_neg (by simp [hnot])]
    split <;> simp
  · rw [List.filter_cons_of_neg (by simp [hvalid])]
    exact List.length_filter_le _ [late]

/-- The only model that the request links to is that of the listings. -/
theorem linked_listings {resolved : Resolved}
    (h : manifest.resolve request = .ok resolved) :
    ∀ read ∈ resolved.linked, read.model = listings ∧ read.entity = "listing" := by
  intro read hread
  have hnames : (manifest.resolve request).toOption.all (fun resolved =>
      resolved.linked.all fun read =>
        read.entity == "listing" && read.model.name == "listings") = true := by
    decide +kernel
  rw [h] at hnames
  simp only [Except.toOption, Option.all_some, List.all_eq_true, Bool.and_eq_true,
    beq_iff_eq] at hnames
  obtain ⟨hentity, hname⟩ := hnames read hread
  have hcomplete := Manifest.resolve_complete manifest_regular.models
    manifest_regular.unqualified h
  have hmem := hcomplete.model_mem read hread
  simp only [manifest, List.mem_cons, List.not_mem_nil, or_false] at hmem
  rcases hmem with hmodel | hmodel
  · rw [hmodel] at hname
    exact absurd hname (by decide)
  · exact ⟨hmodel, hentity⟩

theorem join_rows_eq :
    ∃ plan aliasName left joined columns resolved,
      manifest.plan request = .ok plan ∧
        Plan.join aliasName left joined columns ∈ plan.stages ∧
        manifest.resolve request = .ok resolved ∧
        (Plan.join aliasName left joined columns).query.rows warehouse =
          (warehouse.rows resolved.anchor.table).map (fun row =>
            resolved.anchor.elementRow warehouse resolved.elements row ++
              resolved.linked.flatMap (·.linkedRow warehouse resolved.anchor row)) := by
  have hok : (manifest.plan request).toOption.any (fun plan =>
      plan.stages.any fun stage => stage.kindName == "join") = true := by
    decide +kernel
  cases hplan : manifest.plan request with
  | error failure =>
      rw [hplan] at hok
      cases hok
  | ok plan =>
      rw [hplan] at hok
      simp only [Except.toOption, Option.any_some, List.any_eq_true] at hok
      obtain ⟨stage, hstage, hkind⟩ := hok
      cases stage with
      | join aliasName left joined columns =>
          obtain ⟨resolved, hresolve, -, hrows⟩ :=
            Manifest.plan_join_rows manifest_regular hplan hstage
          have hidentifies : ∀ read ∈ resolved.linked,
              read.model.Identifies warehouse read.entity := by
            intro read hread
            obtain ⟨hmodel, hentity⟩ := linked_listings hresolve read hread
            rw [hmodel, hentity]
            exact listings_identifies
          exact ⟨plan, aliasName, left, joined, columns, resolved, rfl, hstage, hresolve,
            (hrows warehouse hidentifies).2.1⟩
      | read => simp [Plan.kindName] at hkind
      | aggregate => simp [Plan.kindName] at hkind
      | metrics => simp [Plan.kindName] at hkind

end Sample

end MetricSql
