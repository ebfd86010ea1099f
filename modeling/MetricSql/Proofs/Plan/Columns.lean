import MetricSql.Proofs.Plan.Resolved

/-!
# The columns of built stages

Which columns the stages of a plan have.  Every planner keeps the role and the
type of the columns that it passes on, so that a group key has, up to the last
stage, those of the element it names.
-/

namespace MetricSql

/-! ## Columns by name -/

namespace Plan

theorem column?_of_mem {plan : Plan} {column : Column} (hnodup : plan.columnNames.Nodup)
    (h : column ∈ plan.columns) : plan.column? column.name = some column := by
  cases hfound : plan.column? column.name with
  | none =>
      have hnot := List.find?_eq_none.mp hfound column h
      simp at hnot
  | some found =>
      have hmem := List.mem_of_find?_eq_some hfound
      have hname : found.name = column.name := by simpa using List.find?_some hfound
      rw [List.inj_on_of_nodup_map hnodup hmem h hname]

theorem column?_mem {plan : Plan} {name : String} {column : Column}
    (h : plan.column? name = some column) : column ∈ plan.columns ∧ column.name = name :=
  ⟨List.mem_of_find?_eq_some h, by simpa using List.find?_some h⟩

theorem exists_column? {plan : Plan} {name : String} (h : name ∈ plan.columnNames) :
    ∃ column, plan.column? name = some column := by
  obtain ⟨column, hcolumn, hname⟩ := List.mem_map.mp h
  rw [← Option.isSome_iff_exists, column?, List.find?_isSome]
  exact ⟨column, hcolumn, by simp [hname]⟩

/-- A column of the name has the role and the type of the element. -/
def Shows (plan : Plan) (name : String) (element : Element) : Prop :=
  ∃ column, plan.column? name = some column ∧ column.role = element.role ∧
    column.dataType = element.dataType?

theorem shows_of_mem {plan : Plan} {element : Element} (column : Column)
    (hnodup : plan.columnNames.Nodup) (h : column ∈ plan.columns)
    (hrole : column.role = element.role) (htype : column.dataType = element.dataType?) :
    plan.Shows column.name element :=
  ⟨column, column?_of_mem hnodup h, hrole, htype⟩

end Plan

/-! ## Reading -/

namespace Model

theorem bindAll_columnNames {model : Model} {tableAlias : String}
    {elements : List ElementRef} {columns : List Column}
    (h : model.bindAll tableAlias elements = .ok columns) :
    columns.map (·.name) = elements.map ElementRef.columnName := by
  rw [← List.forall₂_eq_eq_eq, List.forall₂_map_left_iff, List.forall₂_map_right_iff]
  exact (bindAll_eq_ok.mp h).1.flip.imp fun column ref hbind => bindElement_name hbind

theorem read_columnNames {model : Model} {elements : List ElementRef}
    {supply supply' : AliasSupply} {node : Plan}
    (h : model.read elements supply = (.ok node, supply')) :
    node.columnNames = elements.map ElementRef.columnName ∧ node.columnNames.Nodup := by
  obtain ⟨-, columns, hbind, rfl, -⟩ := read_eq_ok.mp h
  exact ⟨bindAll_columnNames hbind, (bindAll_eq_ok.mp hbind).2⟩

theorem mem_columnNames_of_read {model : Model} {elements : List ElementRef}
    {supply supply' : AliasSupply} {node : Plan} {name : String}
    (h : model.read elements supply = (.ok node, supply'))
    (hname : ∃ ref ∈ elements, ref.columnName = name) : name ∈ node.columnNames := by
  obtain ⟨ref, href, rfl⟩ := hname
  rw [(read_columnNames h).1]
  exact List.mem_map_of_mem href

theorem read_stages {model : Model} {elements : List ElementRef}
    {supply supply' : AliasSupply} {node : Plan}
    (h : model.read elements supply = (.ok node, supply')) : node.stages = [node] := by
  obtain ⟨-, columns, -, rfl, -⟩ := read_eq_ok.mp h
  rfl

/-- Every element that is read has a column of its own. -/
theorem read_shows {model : Model} {elements : List ElementRef}
    {supply supply' : AliasSupply} {node : Plan}
    (h : model.read elements supply = (.ok node, supply')) {ref : ElementRef}
    (href : ref ∈ elements) :
    ∃ element, model.element? ref.name = some element ∧
      checkGrain? element ref = .ok () ∧ node.Shows ref.columnName element := by
  obtain ⟨-, hnodup⟩ := read_columnNames h
  obtain ⟨-, columns, hbind, rfl, -⟩ := read_eq_ok.mp h
  obtain ⟨column, hcolumn, hbound⟩ := forall₂_exists_left (bindAll_eq_ok.mp hbind).1.flip href
  have hname := bindElement_name hbound
  obtain ⟨element, helement, hcheck, rfl⟩ := bindElement_eq_ok.mp hbound
  obtain ⟨hrole, htype⟩ :=
    elementColumn_role (AliasSupply.tableAlias model.name supply.tables) hcheck
  exact ⟨element, helement, hcheck, hname ▸ Plan.shows_of_mem _ hnodup hcolumn hrole htype⟩

end Model

/-! ## Joining -/

namespace Plan

variable {primary node : Plan} {targets : List JoinTarget} {supply supply' : AliasSupply}
  {name : String} {element : Element}

theorem joinTargets_nodup (h : primary.joinTargets targets supply = (.ok node, supply'))
    (hprimary : primary.columnNames.Nodup) : node.columnNames.Nodup := by
  rcases joinTargets_eq_ok h with ⟨-, rfl, -⟩ | ⟨joined, -, -, hnodup, -, -⟩
  · exact hprimary
  · exact hnodup

theorem joinTargets_columnNames
    (h : primary.joinTargets targets supply = (.ok node, supply')) :
    node.columnNames =
      primary.columnNames ++ (targets.flatMap JoinTarget.gains).map (·.name) := by
  rcases joinTargets_eq_ok h with ⟨rfl, rfl, -⟩ | ⟨joined, -, -, -, rfl, -⟩
  · simp
  · simp [columnNames, columns, leftColumns, LeftColumn.ofColumn, LeftColumn.toColumn,
      Function.comp_def]

theorem joinTargets_shows_left
    (h : primary.joinTargets targets supply = (.ok node, supply'))
    (hshows : primary.Shows name element) : node.Shows name element := by
  rcases joinTargets_eq_ok h with ⟨-, rfl, -⟩ | ⟨joined, -, -, hnodup, rfl, -⟩
  · exact hshows
  · obtain ⟨column, hcolumn, hrole, htype⟩ := hshows
    obtain ⟨hmem, rfl⟩ := column?_mem hcolumn
    refine shows_of_mem (⟨column.name, .of primary.aliasName column.name,
      column.role, column.dataType⟩) hnodup ?_ hrole htype
    refine List.mem_map.mpr ⟨.ofColumn primary.aliasName id column, ?_, rfl⟩
    exact List.mem_append_left _ (List.mem_map_of_mem hmem)

theorem joinTargets_shows_right
    (h : primary.joinTargets targets supply = (.ok node, supply')) {target : JoinTarget}
    (htarget : target ∈ targets) (hkey : name ∉ target.keys)
    (hshows : target.node.Shows name element) : node.Shows (target.rename name) element := by
  rcases joinTargets_eq_ok h with ⟨rfl, -, -⟩ | ⟨joined, -, -, hnodup, rfl, -⟩
  · cases htarget
  · obtain ⟨column, hcolumn, hrole, htype⟩ := hshows
    obtain ⟨hmem, rfl⟩ := column?_mem hcolumn
    refine shows_of_mem (⟨target.rename column.name,
      .of target.node.aliasName column.name, column.role, column.dataType⟩) hnodup ?_ hrole htype
    refine List.mem_map.mpr
      ⟨.ofColumn target.node.aliasName target.rename column, ?_, rfl⟩
    refine List.mem_append_right _ (List.mem_flatMap.mpr ⟨target, htarget, ?_⟩)
    exact List.mem_map_of_mem (List.mem_filter.mpr ⟨hmem, by simpa using hkey⟩)

end Plan

theorem LeftColumn.find?_leftColumns {primary : Plan} (extra : List LeftColumn)
    {name : String} (hname : name ∈ primary.columnNames) :
    ∃ column, primary.column? name = some column ∧
      LeftColumn.find? (primary.leftColumns ++ extra) name =
        some (.ofColumn primary.aliasName id column) := by
  obtain ⟨column, hcolumn⟩ := Plan.exists_column? hname
  refine ⟨column, hcolumn, ?_⟩
  have hleft : primary.leftColumns.find? (·.name == name) =
      (primary.column? name).map (ofColumn primary.aliasName id) := by
    rw [Plan.leftColumns, List.find?_map]
    rfl
  rw [LeftColumn.find?, List.find?_append, hleft, hcolumn]
  rfl

namespace LinkedRead

/-- The elements that are added to the rows of the anchor. -/
def outputs (read : LinkedRead) : List ElementRef :=
  read.elements.filter fun ref => ref.columnName != read.entity

/-- How a linked model is joined: on its entity and inside its window, with both
taken from the anchor. -/
def joined (time : Option String) (primary : String) (read : LinkedRead) (node : Plan) :
    Joined Plan :=
  { right := node
    kind := .leftOuter
    keys := [⟨read.entity, primary, read.entity, read.entity⟩]
    window := (read.target time node).window.map fun window =>
      ⟨primary, window.time, window.start, window.stop⟩
    qualifier := some read.entity }

theorem target_window_eq_some {time : Option String} {read : LinkedRead} {node : Plan}
    {window : WindowJoin} :
    (read.target time node).window = some window ↔
      read.model.window = some ⟨window.start, window.stop⟩ ∧ time = some window.time := by
  obtain ⟨name, start, stop⟩ := window
  cases hmodel : read.model.window with
  | none => simp [target, hmodel]
  | some validity =>
      cases time with
      | none => simp [target, hmodel]
      | some time =>
          obtain ⟨first, last⟩ := validity
          simp [target, hmodel, and_comm]

theorem attach_target {time : Option String} {read : LinkedRead} {node primary : Plan}
    {extra left : List LeftColumn} {found : Joined Plan}
    (hentity : read.entity ∈ primary.columnNames)
    (htime : ∀ name, time = some name → name ∈ primary.columnNames)
    (h : (read.target time node).attach primary.aliasName (primary.leftColumns ++ extra) =
      .ok (left, found)) :
    found = read.joined time primary.aliasName node := by
  obtain ⟨-, keys, window, hkeys, hwindow, -, rfl⟩ := JoinTarget.attach_eq_ok h
  have hkeys' : keys = [⟨read.entity, primary.aliasName, read.entity, read.entity⟩] := by
    obtain ⟨key, rest, hkey, hrest, rfl⟩ := List.forall₂_cons_left_iff.mp hkeys
    obtain ⟨l, r, hl, -, rfl⟩ := JoinTarget.matchKey_eq_ok hkey
    obtain ⟨column, hcolumn, hfound⟩ := LeftColumn.find?_leftColumns extra hentity
    cases hl.symm.trans hfound
    rw [List.forall₂_nil_left_iff.mp hrest]
    simp only [LeftColumn.ofColumn, (Plan.column?_mem hcolumn).2]
  have hwindow' : window = (read.joined time primary.aliasName node).window := by
    rcases JoinTarget.matchWindow_eq_ok hwindow with ⟨hnone, rfl⟩ |
      ⟨found, column, start, stop, hsome, hcolumn, -, -, rfl⟩
    · rw [joined, hnone]
      rfl
    · have hname := htime _ (target_window_eq_some.mp hsome).2
      obtain ⟨source, hsource, hfound⟩ := LeftColumn.find?_leftColumns extra hname
      cases hcolumn.symm.trans hfound
      rw [joined, hsome]
      simp only [LeftColumn.ofColumn, (Plan.column?_mem hsource).2, Option.map_some]
  rw [hkeys', hwindow']
  rfl

theorem attachAll_targets {time : Option String} {primary : Plan} {reads : List LinkedRead}
    {targets : List JoinTarget} (htargets : List.Forall₂ (IsTarget time) reads targets)
    {extra left : List LeftColumn} {found : List (Joined Plan)}
    (hentity : ∀ read ∈ reads, read.entity ∈ primary.columnNames)
    (htime : ∀ name, time = some name → name ∈ primary.columnNames)
    (h : JoinTarget.attachAll primary.aliasName (primary.leftColumns ++ extra) targets =
      .ok (left, found)) :
    found = List.zipWith (fun read target => read.joined time primary.aliasName target.node)
      reads targets := by
  induction htargets generalizing extra found with
  | nil =>
      cases h
      rfl
  | @cons read target reads targets htarget _ ih =>
      obtain ⟨node, before, after, -, rfl⟩ := htarget
      obtain ⟨first, others, hattach, hrest, rfl⟩ := JoinTarget.attachAll_cons_eq_ok h
      rw [attach_target (hentity read List.mem_cons_self) htime hattach]
      rw [List.append_assoc] at hrest
      rw [ih (fun other hother => hentity other (List.mem_cons_of_mem _ hother)) hrest]
      rfl

/-- A linked model adds its elements under names that begin with the entity. -/
theorem gains_names {time : Option String} {read : LinkedRead} {target : JoinTarget}
    (htarget : IsTarget time read target) :
    target.gains.map (·.name) =
      read.outputs.map fun ref => qualified read.entity ref.columnName := by
  obtain ⟨node, before, after, hnode, rfl⟩ := htarget
  have hcolumns := (Model.read_columnNames hnode).1
  calc
    _ = (node.columnNames.filter fun name => name != read.entity).map
          (qualified read.entity) := by
        simp [JoinTarget.gains, JoinTarget.contributed, JoinTarget.rename, target,
          LeftColumn.ofColumn, Plan.columnNames, List.filter_map, Function.comp_def,
          bne, beq_eq_decide]
    _ = read.outputs.map fun ref => qualified read.entity ref.columnName := by
        simp [hcolumns, outputs, List.filter_map, Function.comp_def]

theorem flatMap_gains_names {time : Option String} {reads : List LinkedRead}
    {targets : List JoinTarget} (htargets : List.Forall₂ (IsTarget time) reads targets) :
    (targets.flatMap JoinTarget.gains).map (·.name) =
      reads.flatMap fun read =>
        read.outputs.map fun ref => qualified read.entity ref.columnName := by
  induction htargets with
  | nil => rfl
  | cons htarget _ ih =>
      rw [List.flatMap_cons, List.map_append, gains_names htarget, ih, List.flatMap_cons]

theorem readAll_supply {time : Option String} {reads : List LinkedRead}
    {supply supply' : AliasSupply} {targets : List JoinTarget}
    (h : readAll time reads supply = .ok (targets, supply')) :
    supply'.subqueries = supply.subqueries + reads.length := by
  induction reads generalizing supply targets with
  | nil =>
      cases h
      rfl
  | cons read rest ih =>
      rw [readAll] at h
      split at h
      next => cases h
      next node middle hread =>
        simp only [bind_eq_ok] at h
        obtain ⟨⟨others, last⟩, hrest, ⟨⟩⟩ := h
        obtain ⟨-, columns, -, -, rfl⟩ := Model.read_eq_ok.mp hread
        have hlength := ih hrest
        simp only at hlength
        rw [hlength, List.length_cons]
        omega

end LinkedRead

/-! ## Aggregating and computing metrics -/

namespace Plan

variable {input node : Plan} {keys : GroupKeys} {measures : List MeasureTerm}
  {terms : List MetricTerm} {supply supply' : AliasSupply} {key : String} {element : Element}

theorem keyColumn_name {column : Column} (h : input.keyColumn key = .ok column) :
    column.name = key := by
  obtain ⟨source, hsource, -, rfl⟩ := keyColumn_eq_ok h
  exact (column?_mem hsource).2

theorem measureColumn_name {term : MeasureTerm} {column : Column}
    (h : input.measureColumn term = .ok column) : column.name = term.name := by
  obtain ⟨source, expr, -, -, -, rfl⟩ := measureColumn_eq_ok h
  rfl

theorem metricColumn_name {term : MetricTerm} {column : Column}
    (h : input.metricColumn term = .ok column) : column.name = term.name := by
  obtain ⟨expr, dataType, -, rfl⟩ := metricColumn_eq_ok h
  rfl

theorem map_name_of_forall₂ {α : Type} {f : α → Except Failure Column} (nameOf : α → String)
    (hname : ∀ {x column}, f x = .ok column → column.name = nameOf x) {xs : List α}
    {columns : List Column} (h : List.Forall₂ (fun x column => f x = .ok column) xs columns) :
    columns.map (·.name) = xs.map nameOf := by
  rw [← List.forall₂_eq_eq_eq, List.forall₂_map_left_iff, List.forall₂_map_right_iff]
  exact h.flip.imp fun column x hx => hname hx

theorem aggregateBy_columnNames
    (h : input.aggregateBy keys measures supply = (.ok node, supply')) :
    node.columnNames = keys.names ++ measures.map (·.name) ∧ node.columnNames.Nodup := by
  obtain ⟨columns, hcolumns, rfl, -⟩ := aggregateBy_eq_ok h
  obtain ⟨-, keyColumns, measureColumns, hkeys, hmeasures, rfl, hnodup⟩ :=
    aggregateColumns_eq_ok hcolumns
  refine ⟨?_, hnodup⟩
  have hkeyNames := map_name_of_forall₂ id keyColumn_name hkeys
  have hmeasureNames := map_name_of_forall₂ MeasureTerm.name
    measureColumn_name hmeasures
  rw [List.map_id] at hkeyNames
  rw [columnNames, columns, List.map_append, hkeyNames, hmeasureNames]

theorem aggregateBy_shows
    (h : input.aggregateBy keys measures supply = (.ok node, supply'))
    (hkey : key ∈ keys.names) (hshows : input.Shows key element) :
    node.Shows key element := by
  obtain ⟨-, hnodup⟩ := aggregateBy_columnNames h
  obtain ⟨columns, hcolumns, rfl, -⟩ := aggregateBy_eq_ok h
  obtain ⟨-, keyColumns, measureColumns, hkeys, -, rfl, -⟩ := aggregateColumns_eq_ok hcolumns
  obtain ⟨column, hcolumn, hok⟩ := forall₂_exists_left hkeys.flip hkey
  obtain ⟨source, hsource, -, rfl⟩ := keyColumn_eq_ok hok
  obtain ⟨found, hfound, hrole, htype⟩ := hshows
  cases hsource.symm.trans hfound
  obtain ⟨-, rfl⟩ := column?_mem hsource
  exact shows_of_mem (source.through input.aliasName) hnodup
    (List.mem_append_left _ hcolumn) hrole htype

/-- The keys of an aggregation are among its columns, so that a stage above it
finds all of them. -/
theorem filterMap_column?_names {names : List String}
    (h : ∀ name ∈ names, name ∈ input.columnNames) :
    (names.filterMap input.column?).map (·.name) = names := by
  induction names with
  | nil => rfl
  | cons name rest ih =>
      obtain ⟨found, hfound⟩ := exists_column? (h name List.mem_cons_self)
      rw [List.filterMap_cons_some hfound, List.map_cons, (column?_mem hfound).2,
        ih fun other hother => h other (List.mem_cons_of_mem _ hother)]

theorem computeMetrics_columnNames
    (h : input.computeMetrics terms supply = (.ok node, supply'))
    (hinput : input.groupKeys? = some keys)
    (hkeys : ∀ name ∈ keys.names, name ∈ input.columnNames) :
    node.columnNames = keys.names ++ terms.map (·.name) ∧ node.columnNames.Nodup := by
  obtain ⟨found, columns, hparts, rfl, -⟩ := computeMetrics_eq_ok h
  obtain ⟨hfound, -, metricColumns, hmetrics, rfl, hnodup⟩ := metricParts_eq_ok hparts
  cases hinput.symm.trans hfound
  refine ⟨?_, hnodup⟩
  have hmetricNames := map_name_of_forall₂ MetricTerm.name
    metricColumn_name hmetrics
  rw [columnNames, columns, List.map_append, hmetricNames, List.map_map]
  exact congrArg (· ++ _) (filterMap_column?_names hkeys)

theorem computeMetrics_shows
    (h : input.computeMetrics terms supply = (.ok node, supply'))
    (hinput : input.groupKeys? = some keys) (hkey : key ∈ keys.names)
    (hshows : input.Shows key element) : node.Shows key element := by
  obtain ⟨found, columns, hparts, rfl, -⟩ := computeMetrics_eq_ok h
  obtain ⟨hfound, -, metricColumns, -, rfl, hnodup⟩ := metricParts_eq_ok hparts
  cases hinput.symm.trans hfound
  obtain ⟨column, hcolumn, hrole, htype⟩ := hshows
  obtain ⟨-, rfl⟩ := column?_mem hcolumn
  refine shows_of_mem (column.through input.aliasName) hnodup
    (List.mem_append_left _ ?_) hrole htype
  exact List.mem_map_of_mem (List.mem_filterMap.mpr ⟨column.name, hkey, hcolumn⟩)

end Plan

/-! ## Built plans -/

theorem GroupItem.columnName_of_local {item : GroupItem} (h : item.via = none) :
    item.columnName = item.element.columnName := by
  simp [columnName, element, ElementRef.columnName, h]

theorem GroupItem.columnName_eq_qualified {item : GroupItem} {entity : String}
    (h : item.via = some entity) :
    item.columnName = qualified entity item.element.columnName := by
  cases hgrain : item.grain with
  | none => simp [columnName, element, ElementRef.columnName, h, hgrain]
  | some grain =>
      simp [columnName, element, ElementRef.columnName, h, hgrain, qualified,
        String.append_assoc]

/-- The names of all columns that are read and joined. -/
def Resolved.joinNames (resolved : Resolved) : List String :=
  resolved.elements.map ElementRef.columnName ++
    resolved.linked.flatMap fun read =>
      read.outputs.map fun ref => qualified read.entity ref.columnName

section Built

variable {manifest : Manifest} {request : Request} {resolved : Resolved}
  {primary joined : Plan} {targets : List JoinTarget} {s₁ s₂ s₃ : AliasSupply}

/-- The aliases of the anchor and the linked models are all different. -/
theorem Resolved.aliases_nodup
    (hread : resolved.anchor.read resolved.elements {} = (.ok primary, s₁))
    (hreads : LinkedRead.readAll resolved.time resolved.linked s₁ = .ok (targets, s₂)) :
    ([primary.aliasName] ++ targets.map (·.node.aliasName)).Nodup := by
  obtain ⟨-, columns, -, rfl, rfl⟩ := Model.read_eq_ok.mp hread
  rw [(LinkedRead.readAll_eq_ok hreads).2]
  have hrange : (List.range' 0 (resolved.linked.length + 1)).Nodup :=
    List.nodup_range'
  exact hrange.map AliasSupply.subqueryAlias_injective

theorem Resolved.joined_columnNames
    (hread : resolved.anchor.read resolved.elements {} = (.ok primary, s₁))
    (hreads : LinkedRead.readAll resolved.time resolved.linked s₁ = .ok (targets, s₂))
    (hjoin : primary.joinTargets targets s₂ = (.ok joined, s₃)) :
    joined.columnNames = resolved.joinNames := by
  rw [Plan.joinTargets_columnNames hjoin, (Model.read_columnNames hread).1,
    LinkedRead.flatMap_gains_names (LinkedRead.readAll_eq_ok hreads).1]
  rfl

/-- Each linked model is joined to the anchor itself, whatever is joined before it. -/
theorem Resolved.Sorted.joined_eq (hsorted : resolved.Sorted manifest request)
    (hread : resolved.anchor.read resolved.elements {} = (.ok primary, s₁))
    (htargets : List.Forall₂ (LinkedRead.IsTarget resolved.time) resolved.linked targets)
    {left : List LeftColumn} {found : List (Joined Plan)}
    (hattach : JoinTarget.attachAll primary.aliasName primary.leftColumns targets =
      .ok (left, found)) :
    found = List.zipWith (fun read target =>
      read.joined resolved.time primary.aliasName target.node) resolved.linked targets := by
  rw [← List.append_nil primary.leftColumns] at hattach
  exact LinkedRead.attachAll_targets htargets
    (fun read hmem => Model.mem_columnNames_of_read hread (hsorted.link_mem read hmem))
    (fun time htime => Model.mem_columnNames_of_read hread (hsorted.time_mem time htime)) hattach

/-- A linked item is in the read that has its link, behind the entity. -/
theorem Resolved.Sorted.exists_read (hmodels : (manifest.models.map (·.name)).Nodup)
    (hsorted : resolved.Sorted manifest request) {item : GroupItem} {entity : String}
    (hitem : item ∈ request.groupBy) (hvia : item.via = some entity) :
    ∃ before : LinkedRead, before.widened ∈ resolved.linked ∧
      before.Collects manifest resolved.anchor request.groupBy ∧ before.entity = entity ∧
      manifest.linkedModel? entity item.name resolved.anchor.name = some before.model ∧
      item.element ∈ before.elements.tail := by
  obtain ⟨-, model, hmodel⟩ :=
    (Manifest.resolves_iff_of_linked hvia).mp (hsorted.resolves item hitem)
  have hlink := Manifest.linkName?_of_linked hvia hmodel
  have hlinks : (entity, model.name) ∈ resolved.linked.map LinkedRead.link := by
    rw [hsorted.linked_eq, Manifest.links, List.mem_eraseDups]
    exact List.mem_filterMap.mpr ⟨item, hitem, hlink⟩
  obtain ⟨read, hmember, hreadLink⟩ := List.mem_map.mp hlinks
  obtain ⟨before, hcollects, rfl⟩ := hsorted.collects read hmember
  rw [LinkedRead.widened_link] at hreadLink
  rw [← hreadLink] at hlink
  obtain ⟨hentity, hfound⟩ := hcollects.linkedModel?_eq hmodels hlink
  cases hvia.symm.trans hentity
  exact ⟨before, hmember, hcollects, rfl, hfound, hcollects.element_mem hitem hlink⟩

/-- Every item has a column of its name below the aggregation, with the role and
the type of the element that it names. -/
theorem Resolved.joined_shows (hmodels : (manifest.models.map (·.name)).Nodup)
    (hsorted : resolved.Sorted manifest request)
    (hread : resolved.anchor.read resolved.elements {} = (.ok primary, s₁))
    (hreads : LinkedRead.readAll resolved.time resolved.linked s₁ = .ok (targets, s₂))
    (hjoin : primary.joinTargets targets s₂ = (.ok joined, s₃)) {item : GroupItem}
    (hitem : item ∈ request.groupBy) :
    ∃ element, manifest.itemElement? resolved.anchor item = some element ∧
      Model.checkGrain? element item.element = .ok () ∧
      joined.Shows item.columnName element := by
  unfold Manifest.itemElement?
  cases hvia : item.via with
  | none =>
      have hmem := hsorted.element_mem item hitem hvia
      obtain ⟨element, helement, hcheck, hshows⟩ := Model.read_shows hread hmem
      exact ⟨element, helement, hcheck, GroupItem.columnName_of_local hvia ▸
        Plan.joinTargets_shows_left hjoin hshows⟩
  | some entity =>
      obtain ⟨before, hmember, hcollects, rfl, hmodel, htail⟩ :=
        hsorted.exists_read hmodels hitem hvia
      obtain ⟨more, helements⟩ := LinkedRead.elements_widened hcollects.elements_eq
      rw [hcollects.elements_eq, List.tail_cons] at htail
      obtain ⟨target, htarget, node, start, stop, hnode, rfl⟩ :=
        forall₂_exists_left (LinkedRead.readAll_eq_ok hreads).1.flip hmember
      have hwidens := before.widens_widened
      rw [hwidens.model_eq] at hnode
      have hmem : item.element ∈ before.widened.elements := by
        rw [helements]
        exact List.mem_cons_of_mem _ (List.mem_append_left _ htail)
      obtain ⟨element, helement, hcheck, hshows⟩ := Model.read_shows hnode hmem
      have hkey : item.element.columnName ≠ before.entity := by
        obtain ⟨hnames, hnodup⟩ := Model.read_columnNames hnode
        rw [hnames, helements, List.map_cons, List.nodup_cons] at hnodup
        intro heq
        apply hnodup.1
        have hin := List.mem_map_of_mem (f := ElementRef.columnName)
          (List.mem_append_left more htail)
        rw [heq] at hin
        exact hin
      have hjoined := Plan.joinTargets_shows_right hjoin htarget
        (by simpa [LinkedRead.target, hwidens.entity_eq] using hkey) hshows
      refine ⟨element, ?_, hcheck, ?_⟩
      · change (manifest.linkedModel? before.entity item.name resolved.anchor.name).bind
          (·.element? item.name) = some element
        rw [hmodel]
        exact helement
      · rw [GroupItem.columnName_eq_qualified hvia]
        simpa [LinkedRead.target, JoinTarget.rename, hwidens.entity_eq] using hjoined

end Built

end MetricSql
