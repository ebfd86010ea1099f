import MetricSql.Proofs.Plan.Columns
import MetricSql.Proofs.Plan.Refusal

/-!
# When targets can be joined

A join takes one target after the other, and each target sees the columns that were gathered
before it.  `JoinTarget.Fits` says what these columns must offer to a target, `Joined.Records`
what the join keeps of a target that fits, and `JoinTarget.Refuses` what is reported of one that
does not.  A join of built nodes succeeds exactly if every target fits, so that the names need not
be compared once more at its end.
-/

namespace MetricSql

/-! ## Built nodes -/

/-- Some sequence of planner calls returns the node. -/
def Plan.Built (plan : Plan) : Prop := ∃ calls, plan ∈ (Session.run calls).nodes

theorem Plan.computeMetrics_nodup
    {input node : Plan} {terms : List MetricTerm} {supply supply' : AliasSupply}
    (h : input.computeMetrics terms supply = (.ok node, supply')) :
    node.columnNames.Nodup := by
  obtain ⟨keys, columns, hparts, rfl, -⟩ := computeMetrics_eq_ok h
  obtain ⟨-, -, metricColumns, -, -, hnodup⟩ := metricParts_eq_ok hparts
  exact hnodup

/-- However often nodes are used, the columns of a node have different names. -/
theorem Plan.Built.nodup {plan : Plan} (h : plan.Built) : plan.columnNames.Nodup := by
  obtain ⟨calls, hplan⟩ := h
  apply Session.run_induction (P := fun node => node.columnNames.Nodup) ?_ ?_ ?_ ?_ calls plan hplan
  · intro model elements supply supply' node hread
    exact (Model.read_columnNames hread).2
  · intro primary node targets supply supply' hprimary _ hjoin
    exact joinTargets_nodup hjoin hprimary
  · intro input node keys measures supply supply' _ haggregate
    exact (aggregateBy_columnNames haggregate).2
  · intro input node terms supply supply' _ hmetrics
    exact computeMetrics_nodup hmetrics

/-! ## The columns of a join -/

/-- The columns that a join takes over from a target: all but the keys, from where they are. -/
def JoinTarget.taken (target : JoinTarget) : List Column :=
  (target.node.columns.filter fun column => column.name ∉ target.keys).map fun column =>
    { column with
      name := target.rename column.name
      expr := .of target.node.aliasName column.name }

/-- The columns of a join of the targets: those of the primary relation come first. -/
def Plan.joinColumns (primary : Plan) (targets : List JoinTarget) : List Column :=
  primary.columns.map (·.through primary.aliasName) ++ targets.flatMap JoinTarget.taken

theorem JoinTarget.rename_injective (target : JoinTarget) :
    Function.Injective target.rename := by
  intro a b h
  unfold rename at h
  split at h
  next qualifier _ => exact (String.append_right_inj (qualifier ++ "__")).mp h
  next => exact h

theorem JoinTarget.map_toColumn_gains (target : JoinTarget) :
    target.gains.map LeftColumn.toColumn = target.taken := by
  simp [gains, contributed, taken, LeftColumn.ofColumn, LeftColumn.toColumn, Function.comp_def]

theorem Plan.map_toColumn_leftColumns (plan : Plan) :
    plan.leftColumns.map LeftColumn.toColumn =
      plan.columns.map (·.through plan.aliasName) := by
  simp [leftColumns, LeftColumn.ofColumn, LeftColumn.toColumn, Column.through, Function.comp_def]

/-- The names of the left side, whether they are said of its columns or of where they come from. -/
theorem LeftColumn.map_name_toColumn (left : List LeftColumn) :
    (left.map toColumn).map (·.name) = left.map (·.name) := by
  simp [toColumn, Function.comp_def]

theorem LeftColumn.find?_eq_none_iff {left : List LeftColumn} {name : String} :
    find? left name = none ↔ name ∉ left.map (·.name) := by
  simp only [find?, List.find?_eq_none, beq_iff_eq, List.mem_map, not_exists, not_and]

theorem Plan.column?_eq_none_iff {plan : Plan} {name : String} :
    plan.column? name = none ↔ name ∉ plan.columnNames := by
  simp only [column?, List.find?_eq_none, beq_iff_eq, columnNames, List.mem_map, not_exists,
    not_and]

/-! ## Targets that fit -/

/-- The key is a column of both sides, and no two different types are known of it. -/
structure JoinTarget.KeyFits (left : List Column) (target : JoinTarget) (key : String) :
    Prop where
  left_mem : key ∈ left.map (·.name)
  right_mem : key ∈ target.node.columnNames
  types_eq : ∀ l ∈ left, ∀ r ∈ target.node.columns, l.name = key → r.name = key →
    ∀ leftType rightType, l.dataType = some leftType → r.dataType = some rightType →
      leftType = rightType

/-- The target can be joined onto a left side with the columns. -/
structure JoinTarget.Fits (left : List Column) (target : JoinTarget) : Prop where
  keys_ne_nil : target.keys ≠ []
  keys : ∀ key ∈ target.keys, target.KeyFits left key
  time_mem : ∀ window, target.window = some window → window.time ∈ left.map (·.name)
  bounds_mem : ∀ window, target.window = some window →
    window.start ∈ target.node.columnNames ∧ window.stop ∈ target.node.columnNames
  fresh : ∀ name ∈ target.node.columnNames, name ∉ target.keys →
    target.rename name ∉ left.map (·.name)

/-- The column of the name is selected from a column of the relation with the alias. -/
def SelectedFrom (left : List Column) (name aliasName column : String) : Prop :=
  ∃ l ∈ left, l.name = name ∧ l.expr = .of aliasName column

/-- What a join keeps of a target.  A column of the left side is compared where it comes from,
also if an earlier target has brought it in. -/
structure Joined.Records (left : List Column) (target : JoinTarget) (joined : Joined Plan) :
    Prop where
  right_eq : joined.right = target.node
  outer : target.role = .dimension → joined.kind = .leftOuter
  inner : target.role = .equivalent → joined.kind = .inner
  qualifier_eq : joined.qualifier = target.qualifier
  keys : List.Forall₂ (fun key (found : KeyMatch) => found.key = key ∧ found.rightColumn = key ∧
    SelectedFrom left key found.leftAlias found.leftColumn) target.keys joined.keys
  window : Option.Rel (fun (window : WindowJoin) (found : WindowMatch) =>
    SelectedFrom left window.time found.leftAlias found.leftColumn ∧
      found.startColumn = window.start ∧ found.stopColumn = window.stop)
    target.window joined.window

/-- What is wrong with a target that does not fit, and how it is reported. -/
inductive JoinTarget.Refuses (primary : String) (left : List Column) (target : JoinTarget) :
    Failure → Prop
  | noKeys (h : target.keys = []) : Refuses primary left target (.noJoinKeys target.node.aliasName)
  | leftKey {key : String} (hkey : key ∈ target.keys) (h : key ∉ left.map (·.name)) :
      Refuses primary left target (.unresolvedJoinKey key .left primary)
  | rightKey {key : String} (hkey : key ∈ target.keys) (h : key ∉ target.node.columnNames) :
      Refuses primary left target (.unresolvedJoinKey key .right target.node.aliasName)
  | keyTypes {l r : Column} {leftType rightType : DataType} (hkey : r.name ∈ target.keys)
      (hl : l ∈ left) (hr : r ∈ target.node.columns) (hname : l.name = r.name)
      (hleft : l.dataType = some leftType) (hright : r.dataType = some rightType)
      (h : leftType ≠ rightType) :
      Refuses primary left target (.joinKeyTypes r.name leftType rightType)
  | time {window : WindowJoin} (hwindow : target.window = some window)
      (h : window.time ∉ left.map (·.name)) :
      Refuses primary left target (.unresolvedJoinKey window.time .left primary)
  | bound {window : WindowJoin} {name : String} (hwindow : target.window = some window)
      (hname : name = window.start ∨ name = window.stop) (h : name ∉ target.node.columnNames) :
      Refuses primary left target (.unresolvedJoinKey name .right target.node.aliasName)
  | name {column : Column} (hcolumn : column ∈ target.node.columns)
      (hkey : column.name ∉ target.keys) (h : target.rename column.name ∈ left.map (·.name)) :
      Refuses primary left target (.duplicateColumn .join (target.rename column.name))

theorem JoinTarget.Refuses.not_fits
    {primary : String} {left : List Column} {target : JoinTarget} {failure : Failure}
    (h : target.Refuses primary left failure) : ¬ target.Fits left := by
  intro hfits
  cases h with
  | noKeys hnil => exact hfits.keys_ne_nil hnil
  | leftKey hkey hnot => exact hnot (hfits.keys _ hkey).left_mem
  | rightKey hkey hnot => exact hnot (hfits.keys _ hkey).right_mem
  | keyTypes hkey hl hr hname hleft hright hne =>
      exact hne ((hfits.keys _ hkey).types_eq _ hl _ hr hname rfl _ _ hleft hright)
  | time hwindow hnot => exact hnot (hfits.time_mem _ hwindow)
  | bound hwindow hname hnot =>
      obtain ⟨hstart, hstop⟩ := hfits.bounds_mem _ hwindow
      rcases hname with rfl | rfl
      · exact hnot hstart
      · exact hnot hstop
  | name hcolumn hkey htaken =>
      exact hfits.fresh _ (List.mem_map_of_mem hcolumn) hkey htaken

/-! ## One target -/

namespace JoinTarget

variable {primary : String} {left left' : List LeftColumn} {target : JoinTarget}
  {joined : Joined Plan} {failure : Failure} {key : String}

theorem selectedFrom_of_find? {name : String} {l : LeftColumn}
    (h : LeftColumn.find? left name = some l) :
    SelectedFrom (left.map LeftColumn.toColumn) name l.aliasName l.column := by
  have hname : l.name = name := by simpa using List.find?_some h
  exact ⟨l.toColumn, List.mem_map_of_mem (List.mem_of_find?_eq_some h), hname, rfl⟩

theorem name_mem_of_find? {name : String} {l : LeftColumn}
    (h : LeftColumn.find? left name = some l) :
    name ∈ (left.map LeftColumn.toColumn).map (·.name) := by
  obtain ⟨column, hcolumn, hname, -⟩ := selectedFrom_of_find? h
  exact List.mem_map.mpr ⟨column, hcolumn, hname⟩

/-- The two types that the key has are not known to differ. -/
theorem matchKey_types
    {found : KeyMatch} {l : LeftColumn} {r : Column}
    (hl : LeftColumn.find? left key = some l) (hr : target.node.column? key = some r)
    (h : target.matchKey primary left key = .ok found) {leftType rightType : DataType}
    (hleft : l.dataType = some leftType) (hright : r.dataType = some rightType) :
    leftType = rightType := by
  by_contra hne
  simp [matchKey, hl, hr, hleft, hright, hne] at h

theorem matchKey_fits
    {found : KeyMatch} (hleft : (left.map (·.name)).Nodup)
    (hnode : target.node.columnNames.Nodup)
    (h : target.matchKey primary left key = .ok found) :
    target.KeyFits (left.map LeftColumn.toColumn) key ∧
      found.key = key ∧ found.rightColumn = key ∧
      SelectedFrom (left.map LeftColumn.toColumn) key found.leftAlias found.leftColumn := by
  obtain ⟨l, r, hl, hr, rfl⟩ := matchKey_eq_ok h
  obtain ⟨hrmem, hrname⟩ := Plan.column?_mem hr
  refine ⟨⟨name_mem_of_find? hl, hrname ▸ List.mem_map_of_mem hrmem, ?_⟩, rfl, rfl,
    selectedFrom_of_find? hl⟩
  intro column hcolumn other hother hcolumnName hotherName leftType rightType htype hotherType
  obtain ⟨source, hsource, rfl⟩ := List.mem_map.mp hcolumn
  -- Names are distinct on both sides, so the columns are those that were looked up.
  have hsourceEq : source = l := by
    have hlname : l.name = key := by simpa using List.find?_some hl
    apply List.inj_on_of_nodup_map hleft hsource (List.mem_of_find?_eq_some hl)
    exact hcolumnName.trans hlname.symm
  have hotherEq : other = r :=
    List.inj_on_of_nodup_map hnode hother hrmem (hotherName.trans hrname.symm)
  subst hsourceEq hotherEq
  exact matchKey_types hl hr h htype hotherType

theorem matchKey_refuses
    (hkey : key ∈ target.keys) (h : target.matchKey primary left key = .error failure) :
    target.Refuses primary (left.map LeftColumn.toColumn) failure := by
  unfold matchKey at h
  split at h
  next hnone =>
    cases h
    apply Refuses.leftKey hkey
    rw [LeftColumn.map_name_toColumn]
    exact LeftColumn.find?_eq_none_iff.mp hnone
  next l hl =>
    split at h
    next hnone =>
      cases h
      exact .rightKey hkey (Plan.column?_eq_none_iff.mp hnone)
    next r hr =>
      obtain ⟨hrmem, rfl⟩ := Plan.column?_mem hr
      split at h
      next leftType rightType hleft hright =>
        split at h
        next => cases h
        next hne =>
          cases h
          have hlname : l.name = r.name := by simpa using List.find?_some hl
          have hlmem : l.toColumn ∈ left.map LeftColumn.toColumn :=
            List.mem_map_of_mem (List.mem_of_find?_eq_some hl)
          exact .keyTypes hkey hlmem hrmem hlname hleft hright hne
      next => cases h

theorem matchWindow_fits
    {found : Option WindowMatch} (h : target.matchWindow primary left = .ok found) :
    (∀ window, target.window = some window →
      window.time ∈ (left.map LeftColumn.toColumn).map (·.name) ∧
        window.start ∈ target.node.columnNames ∧ window.stop ∈ target.node.columnNames) ∧
      Option.Rel (fun (window : WindowJoin) (found : WindowMatch) =>
        SelectedFrom (left.map LeftColumn.toColumn) window.time found.leftAlias
            found.leftColumn ∧
          found.startColumn = window.start ∧ found.stopColumn = window.stop)
        target.window found := by
  rcases matchWindow_eq_ok h with ⟨hnone, rfl⟩ |
    ⟨window, time, start, stop, hsome, htime, hstart, hstop, rfl⟩
  · rw [hnone]
    exact ⟨by simp, .none⟩
  · rw [hsome]
    obtain ⟨hstartMem, hstartName⟩ := Plan.column?_mem hstart
    obtain ⟨hstopMem, hstopName⟩ := Plan.column?_mem hstop
    refine ⟨?_, .some ⟨selectedFrom_of_find? htime, rfl, rfl⟩⟩
    rintro _ ⟨⟩
    exact ⟨name_mem_of_find? htime, hstartName ▸ List.mem_map_of_mem hstartMem,
      hstopName ▸ List.mem_map_of_mem hstopMem⟩

theorem matchWindow_refuses
    (h : target.matchWindow primary left = .error failure) :
    target.Refuses primary (left.map LeftColumn.toColumn) failure := by
  unfold matchWindow at h
  split at h
  next => cases h
  next window hwindow =>
    have hbound : ∀ {name : String}, (name = window.start ∨ name = window.stop) →
        target.requireColumn name = .error failure →
        target.Refuses primary (left.map LeftColumn.toColumn) failure := by
      intro name hname hrequire
      unfold requireColumn at hrequire
      split at hrequire
      next => cases hrequire
      next hnone =>
        cases hrequire
        exact .bound hwindow hname (Plan.column?_eq_none_iff.mp hnone)
    split at h
    next hnone =>
      cases h
      apply Refuses.time hwindow
      rw [LeftColumn.map_name_toColumn]
      exact LeftColumn.find?_eq_none_iff.mp hnone
    next time htime =>
      simp only [bind_eq_error] at h
      rcases h with hstart | ⟨⟨⟩, -, hstop | ⟨⟨⟩, -, ⟨⟩⟩⟩
      · exact hbound (.inl rfl) hstart
      · exact hbound (.inr rfl) hstop

theorem contribute_nodup
    {columns : List Column} (hleft : (left.map (·.name)).Nodup)
    (h : target.contribute left columns = .ok left') : (left'.map (·.name)).Nodup := by
  induction columns generalizing left with
  | nil =>
      cases h
      exact hleft
  | cons column rest ih =>
      simp only [contribute] at h
      split at h
      next => cases h
      next hnone =>
        apply ih ?_ h
        have hnew := LeftColumn.find?_eq_none_iff.mp hnone
        rw [List.map_append, List.map_singleton, ← List.concat_eq_append]
        exact hleft.concat hnew

/-- A name is taken by the left side as it was before: the target itself repeats no name. -/
theorem contribute_taken
    {columns : List Column} (hcolumns : (columns.map (·.name)).Nodup)
    (h : target.contribute left columns = .error failure) :
    ∃ column ∈ columns, target.rename column.name ∈ left.map (·.name) ∧
      failure = .duplicateColumn .join (target.rename column.name) := by
  induction columns generalizing left with
  | nil => cases h
  | cons column rest ih =>
      simp only [contribute] at h
      split at h
      next found hfound =>
        cases h
        refine ⟨column, List.mem_cons_self, ?_, rfl⟩
        rw [← LeftColumn.map_name_toColumn]
        exact name_mem_of_find? hfound
      next =>
        rw [List.map_cons, List.nodup_cons] at hcolumns
        obtain ⟨other, hother, htaken, heq⟩ := ih hcolumns.2 h
        refine ⟨other, List.mem_cons_of_mem _ hother, ?_, heq⟩
        rw [List.map_append, List.mem_append] at htaken
        rcases htaken with htaken | hsame
        · exact htaken
        · have hname : other.name = column.name := by
            apply target.rename_injective
            simpa [LeftColumn.ofColumn] using hsame
          exact absurd (hname ▸ List.mem_map_of_mem hother) hcolumns.1

theorem attach_nodup
    (hleft : (left.map (·.name)).Nodup)
    (h : target.attach primary left = .ok (left', joined)) : (left'.map (·.name)).Nodup := by
  unfold attach at h
  split at h
  next => cases h
  next =>
    simp only [bind_eq_ok] at h
    obtain ⟨keys, -, window, -, middle, hcontribute, ⟨⟩⟩ := h
    exact contribute_nodup hleft hcontribute

theorem attach_fits
    (hleft : (left.map (·.name)).Nodup) (hnode : target.node.columnNames.Nodup)
    (h : target.attach primary left = .ok (left', joined)) :
    target.Fits (left.map LeftColumn.toColumn) ∧
      joined.Records (left.map LeftColumn.toColumn) target := by
  have hnodup := attach_nodup hleft h
  obtain ⟨hne, keys, window, hkeys, hwindow, rfl, rfl⟩ := attach_eq_ok h
  have hmatched := hkeys.imp fun key found hfound => matchKey_fits hleft hnode hfound
  obtain ⟨hnames, hrecorded⟩ := matchWindow_fits hwindow
  refine ⟨⟨hne, ?_, fun window hsome => (hnames window hsome).1,
    fun window hsome => (hnames window hsome).2, ?_⟩, ⟨rfl, ?_, ?_, rfl, ?_, hrecorded⟩⟩
  · intro key hkey
    obtain ⟨found, -, hfits, -⟩ := forall₂_exists_left hmatched.flip hkey
    exact hfits
  · intro name hname hnot hmem
    rw [LeftColumn.map_name_toColumn] at hmem
    obtain ⟨column, hcolumn, rfl⟩ := List.mem_map.mp hname
    have hgained : target.rename column.name ∈ target.gains.map (·.name) := by
      refine List.mem_map.mpr ⟨.ofColumn target.node.aliasName target.rename column, ?_, rfl⟩
      exact List.mem_map_of_mem (List.mem_filter.mpr ⟨hcolumn, by simpa using hnot⟩)
    rw [List.map_append, List.nodup_append] at hnodup
    exact hnodup.2.2 _ hmem _ hgained rfl
  · intro hrole
    simp [hrole, JoinRole.kind]
  · intro hrole
    simp [hrole, JoinRole.kind]
  · exact hmatched.imp fun key found hfound => hfound.2

theorem attach_refuses
    (hnode : target.node.columnNames.Nodup)
    (h : target.attach primary left = .error failure) :
    target.Refuses primary (left.map LeftColumn.toColumn) failure := by
  unfold attach at h
  cases hkeys : target.keys with
  | nil =>
      rw [hkeys] at h
      cases h
      exact .noKeys hkeys
  | cons first rest =>
      simp only [hkeys, List.isEmpty_cons, Bool.false_eq_true, if_false, bind_eq_error] at h
      rw [← hkeys] at h
      rcases h with hmatch | ⟨keys, -, hwindow | ⟨window, -, hcontribute | ⟨_, -, ⟨⟩⟩⟩⟩
      · obtain ⟨key, hkey, hfail⟩ := mapM_eq_error hmatch
        exact matchKey_refuses hkey hfail
      · exact matchWindow_refuses hwindow
      · have hcolumns : (target.contributed.map (·.name)).Nodup :=
          hnode.sublist (List.filter_sublist.map _)
        obtain ⟨column, hcolumn, htaken, rfl⟩ := contribute_taken hcolumns hcontribute
        obtain ⟨hmem, hnot⟩ := List.mem_filter.mp hcolumn
        rw [← LeftColumn.map_name_toColumn] at htaken
        exact .name hmem (by simpa using hnot) htaken

/-! ## All targets -/

/-- What a target brings in stands before what the targets after it bring in. -/
theorem columns_before_succ
    (left : List LeftColumn) (target : JoinTarget) (rest : List JoinTarget) (i : Nat) :
    (left ++ target.gains).map LeftColumn.toColumn ++ (rest.take i).flatMap taken =
      left.map LeftColumn.toColumn ++ ((target :: rest).take (i + 1)).flatMap taken := by
  rw [List.map_append, map_toColumn_gains, List.append_assoc, List.take_succ_cons,
    List.flatMap_cons]

theorem attachAll_fits
    {targets : List JoinTarget} {found : List (Joined Plan)}
    (hleft : (left.map (·.name)).Nodup)
    (hnodes : ∀ target ∈ targets, target.node.columnNames.Nodup)
    (h : attachAll primary left targets = .ok (left', found)) :
    (left'.map (·.name)).Nodup ∧ found.length = targets.length ∧
      ∀ (i : Nat) (target : JoinTarget) (joined : Joined Plan),
        targets[i]? = some target → found[i]? = some joined →
        target.Fits (left.map LeftColumn.toColumn ++ (targets.take i).flatMap taken) ∧
          joined.Records (left.map LeftColumn.toColumn ++ (targets.take i).flatMap taken)
            target := by
  induction targets generalizing left found with
  | nil =>
      cases h
      exact ⟨hleft, rfl, by simp⟩
  | cons first rest ih =>
      obtain ⟨joined, others, hattach, hrest, rfl⟩ := attachAll_cons_eq_ok h
      rw [List.forall_mem_cons] at hnodes
      have hmiddle := attach_nodup hleft hattach
      obtain ⟨hnodup, hlength, hothers⟩ := ih hmiddle hnodes.2 hrest
      refine ⟨hnodup, by simp [hlength], ?_⟩
      intro i target second htarget hsecond
      cases i with
      | zero =>
          simp only [List.getElem?_cons_zero, Option.some.injEq] at htarget hsecond
          subst htarget hsecond
          simpa using attach_fits hleft hnodes.1 hattach
      | succ i =>
          rw [List.getElem?_cons_succ] at htarget hsecond
          rw [← columns_before_succ]
          exact hothers i target second htarget hsecond

/-- All targets before the one that is refused fit. -/
theorem attachAll_refuses
    {targets : List JoinTarget} (hleft : (left.map (·.name)).Nodup)
    (hnodes : ∀ target ∈ targets, target.node.columnNames.Nodup)
    (h : attachAll primary left targets = .error failure) :
    ∃ (i : Nat) (target : JoinTarget), targets[i]? = some target ∧
      target.Refuses primary (left.map LeftColumn.toColumn ++ (targets.take i).flatMap taken)
        failure ∧
      ∀ (j : Nat) (earlier : JoinTarget), j < i → targets[j]? = some earlier →
        earlier.Fits (left.map LeftColumn.toColumn ++ (targets.take j).flatMap taken) := by
  induction targets generalizing left with
  | nil => cases h
  | cons first rest ih =>
      rw [List.forall_mem_cons] at hnodes
      simp only [attachAll, bind_eq_error] at h
      rcases h with hattach | ⟨⟨middle, joined⟩, hattach, hrest | ⟨_, -, ⟨⟩⟩⟩
      · refine ⟨0, first, rfl, by simpa using attach_refuses hnodes.1 hattach, ?_⟩
        intro j earlier hj
        omega
      · have hmiddle := attach_nodup hleft hattach
        obtain ⟨hfits, -⟩ := attach_fits hleft hnodes.1 hattach
        obtain ⟨-, keys, window, -, -, rfl, -⟩ := attach_eq_ok hattach
        obtain ⟨i, target, htarget, hrefuses, hbefore⟩ := ih hmiddle hnodes.2 hrest
        rw [columns_before_succ] at hrefuses
        refine ⟨i + 1, target, htarget, hrefuses, ?_⟩
        intro j earlier hj hearlier
        cases j with
        | zero =>
            simp only [List.getElem?_cons_zero, Option.some.injEq] at hearlier
            subst hearlier
            simpa using hfits
        | succ j =>
            rw [← columns_before_succ]
            exact hbefore j earlier (by omega) hearlier

end JoinTarget

/-! ## Joins -/

namespace Plan

variable {primary node : Plan} {targets : List JoinTarget} {supply supply' : AliasSupply}

theorem nodup_leftColumns (h : primary.columnNames.Nodup) :
    (primary.leftColumns.map (·.name)).Nodup := by
  simpa [leftColumns, LeftColumn.ofColumn, columnNames, Function.comp_def] using h

theorem joinTargets_records
    (hne : targets ≠ []) (hprimary : primary.columnNames.Nodup)
    (htargets : ∀ target ∈ targets, target.node.columnNames.Nodup)
    (h : primary.joinTargets targets supply = (.ok node, supply')) :
    supply' = { supply with subqueries := supply.subqueries + 1 } ∧
      ((primary.joinColumns targets).map (·.name)).Nodup ∧
      ∃ joined : List (Joined Plan),
        node = .join (AliasSupply.subqueryAlias supply.subqueries) primary joined
          (primary.joinColumns targets) ∧
        joined.length = targets.length ∧
        ∀ (i : Nat) (target : JoinTarget) (found : Joined Plan),
          targets[i]? = some target → joined[i]? = some found →
          target.Fits (primary.joinColumns (targets.take i)) ∧
            found.Records (primary.joinColumns (targets.take i)) target := by
  rcases joinTargets_eq_ok h with ⟨hnil, -⟩ | ⟨joined, -, hattach, hnodup, rfl, rfl⟩
  · exact absurd hnil hne
  · obtain ⟨-, hlength, hall⟩ :=
      JoinTarget.attachAll_fits (nodup_leftColumns hprimary) htargets hattach
    have hcolumns :
        (primary.leftColumns ++ targets.flatMap JoinTarget.gains).map LeftColumn.toColumn =
          primary.joinColumns targets := by
      rw [joinColumns, List.map_append, map_toColumn_leftColumns, List.map_flatMap]
      simp only [JoinTarget.map_toColumn_gains]
    rw [map_toColumn_leftColumns] at hall
    rw [hcolumns] at hnodup ⊢
    exact ⟨rfl, hnodup, joined, rfl, hlength, hall⟩

/-- The names are distinct once all targets are attached, so the join fails only for one of them. -/
theorem joinTargets_refuses
    {failure : Failure} (hprimary : primary.columnNames.Nodup)
    (htargets : ∀ target ∈ targets, target.node.columnNames.Nodup)
    (h : primary.joinTargets targets supply = (.error failure, supply')) :
    ∃ (i : Nat) (target : JoinTarget), targets[i]? = some target ∧
      target.Refuses primary.aliasName (primary.joinColumns (targets.take i)) failure ∧
      ∀ (j : Nat) (earlier : JoinTarget), j < i → targets[j]? = some earlier →
        earlier.Fits (primary.joinColumns (targets.take j)) := by
  have hleft := nodup_leftColumns hprimary
  unfold joinTargets at h
  split at h
  next => cases h
  next =>
    split at h
    next hparts =>
      cases h
      simp only [joinParts, bind_eq_error] at hparts
      rcases hparts with hattach | ⟨⟨left, joined⟩, hattach, hunique | ⟨⟨⟩, -, ⟨⟩⟩⟩
      · have hrefused := JoinTarget.attachAll_refuses hleft htargets hattach
        rw [map_toColumn_leftColumns] at hrefused
        exact hrefused
      · obtain ⟨hnodup, -⟩ := JoinTarget.attachAll_fits hleft htargets hattach
        obtain ⟨-, hnot⟩ := ensureUnique_eq_error hunique
        rw [LeftColumn.map_name_toColumn] at hnot
        exact absurd hnodup hnot
    next => cases h

/-- Built nodes are joined exactly if each target fits onto the columns before it.  The join has the
columns of the primary relation and then those of the targets, each selected from where it comes
from; a join that fails is due to the first target that does not fit, and takes no alias. -/
theorem joinTargets_contract
    (hprimary : primary.Built) (htargets : ∀ target ∈ targets, target.node.Built)
    (hne : targets ≠ []) (supply : AliasSupply) :
    ((∃ node supply', primary.joinTargets targets supply = (.ok node, supply')) ↔
        ∀ (i : Nat) (target : JoinTarget), targets[i]? = some target →
          target.Fits (primary.joinColumns (targets.take i))) ∧
      (∀ node supply', primary.joinTargets targets supply = (.ok node, supply') →
        supply' = { supply with subqueries := supply.subqueries + 1 } ∧
          ((primary.joinColumns targets).map (·.name)).Nodup ∧
          ∃ joined : List (Joined Plan),
            node = .join (AliasSupply.subqueryAlias supply.subqueries) primary joined
              (primary.joinColumns targets) ∧
            joined.length = targets.length ∧
            ∀ (i : Nat) (target : JoinTarget) (found : Joined Plan),
              targets[i]? = some target → joined[i]? = some found →
              found.Records (primary.joinColumns (targets.take i)) target) ∧
      ∀ failure supply', primary.joinTargets targets supply = (.error failure, supply') →
        supply' = supply ∧
          ∃ (i : Nat) (target : JoinTarget), targets[i]? = some target ∧
            target.Refuses primary.aliasName (primary.joinColumns (targets.take i)) failure ∧
            ∀ (j : Nat) (earlier : JoinTarget), j < i → targets[j]? = some earlier →
              earlier.Fits (primary.joinColumns (targets.take j)) := by
  have hnodes : ∀ target ∈ targets, target.node.columnNames.Nodup :=
    fun target htarget => (htargets target htarget).nodup
  refine ⟨⟨?_, ?_⟩, ?_, ?_⟩
  · rintro ⟨node, supply', hjoin⟩ i target htarget
    obtain ⟨-, -, joined, -, hlength, hall⟩ :=
      joinTargets_records hne hprimary.nodup hnodes hjoin
    have hi : i < joined.length := by
      rw [hlength]
      exact (List.getElem?_eq_some_iff.mp htarget).1
    exact (hall i target joined[i] htarget (List.getElem?_eq_getElem hi)).1
  · intro hfits
    cases hjoin : primary.joinTargets targets supply with
    | mk outcome rest =>
        cases outcome with
        | ok node => exact ⟨node, rest, rfl⟩
        | error failure =>
            obtain ⟨i, target, htarget, hrefuses, -⟩ :=
              joinTargets_refuses hprimary.nodup hnodes hjoin
            exact absurd (hfits i target htarget) hrefuses.not_fits
  · intro node supply' hjoin
    obtain ⟨hsupply, hnodup, joined, hnode, hlength, hall⟩ :=
      joinTargets_records hne hprimary.nodup hnodes hjoin
    exact ⟨hsupply, hnodup, joined, hnode, hlength,
      fun i target found htarget hfound => (hall i target found htarget hfound).2⟩
  · intro failure supply' hjoin
    exact ⟨joinTargets_eq_error hjoin, joinTargets_refuses hprimary.nodup hnodes hjoin⟩

end Plan

namespace Sample

def rooms : Model where
  name := "rooms"
  table := { name := "dim_rooms" }
  entities := [
    { name := "listing", kind := .primary, dataType := .int },
    { name := "host", kind := .foreign, dataType := .int }]

def hosts : Model where
  name := "hosts"
  table := { name := "dim_hosts" }
  entities := [{ name := "listing__host", expression := some "id", kind := .primary, dataType := .int }]
  dimensions := [{ name := "city", kind := .categorical, dataType := .string }]

def chainReads : List PlannerCall := [
  .read bookings [⟨"listing", none⟩, ⟨"amount", none⟩],
  .read rooms [⟨"listing", none⟩, ⟨"host", none⟩],
  .read hosts [⟨"listing__host", none⟩, ⟨"city", none⟩]]

def roomTarget (node : Plan) : JoinTarget :=
  { node, keys := ["listing"], qualifier := some "listing" }

/-- Joined on a name that comes from the rooms. -/
def hostTarget (node : Plan) : JoinTarget :=
  { node, keys := ["listing__host"], role := .equivalent, qualifier := some "host" }

/-- The hosts are found through the rooms: both are joined, the hosts on a column of the rooms. -/
theorem hosts_join_rooms :
    ∃ bookingNode roomNode hostNode : Plan, ∃ joined : List (Joined Plan), ∃ found : Joined Plan,
      (Session.run chainReads).nodes = [bookingNode, roomNode, hostNode] ∧
        bookingNode.joinTargets [roomTarget roomNode, hostTarget hostNode] {} =
          (.ok (.join "subq_0" bookingNode joined
            (bookingNode.joinColumns [roomTarget roomNode, hostTarget hostNode])), ⟨1, 0⟩) ∧
        (hostTarget hostNode).Fits (bookingNode.joinColumns [roomTarget roomNode]) ∧
        joined[1]? = some found ∧ found.kind = .inner ∧
        found.Records (bookingNode.joinColumns [roomTarget roomNode]) (hostTarget hostNode) := by
  have hlength : (Session.run chainReads).nodes.length = 3 := by decide +kernel
  obtain ⟨bookingNode, roomNode, hostNode, hnodes⟩ := List.length_eq_three.mp hlength
  have hok : ((Session.run chainReads).nodes.head?.any fun first =>
      (first.joinTargets (List.zipWith (· ·) [roomTarget, hostTarget]
        (Session.run chainReads).nodes.tail) {}).1.isOk) = true := by decide +kernel
  rw [hnodes] at hok
  change (bookingNode.joinTargets [roomTarget roomNode, hostTarget hostNode] {}).1.isOk = true
    at hok
  have hbuilt : ∀ node ∈ [bookingNode, roomNode, hostNode], node.Built := by
    intro node hnode
    exact ⟨chainReads, hnodes ▸ hnode⟩
  have htargets : ∀ target ∈ [roomTarget roomNode, hostTarget hostNode], target.node.Built := by
    simp [roomTarget, hostTarget, hbuilt]
  obtain ⟨hiff, hrecords, -⟩ :=
    Plan.joinTargets_contract (hbuilt bookingNode (by simp)) htargets (by simp) {}
  cases hjoin : bookingNode.joinTargets [roomTarget roomNode, hostTarget hostNode] {} with
  | mk outcome supply =>
      cases outcome with
      | error failure =>
          rw [hjoin] at hok
          cases hok
      | ok node =>
          have hfits := hiff.mp ⟨node, supply, hjoin⟩ 1 (hostTarget hostNode) rfl
          obtain ⟨rfl, -, joined, rfl, hcount, hall⟩ := hrecords node supply hjoin
          have hsecond : 1 < joined.length := by simp [hcount]
          have hfound : joined[1]? = some joined[1] := List.getElem?_eq_getElem hsecond
          have hhost := hall 1 (hostTarget hostNode) joined[1] rfl hfound
          exact ⟨bookingNode, roomNode, hostNode, joined, joined[1], hnodes, hjoin, hfits,
            hfound, hhost.inner rfl, hhost⟩

end Sample

end MetricSql
