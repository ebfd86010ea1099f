import MetricSql.Proofs.Plan.Obstacle

/-!
# Stages with the same columns

Two stages are alike if they have the same columns up to order, whatever their expressions are.  A planner that
is given alike stages, and what it is asked for in another order, answers both calls or neither, and its answers
are alike again.
-/

namespace MetricSql

/-! ## Lists up to order -/

section Lists

variable {α β : Type} {R : α → β → Prop}

/-- The lists can be paired up so that the members of each pair are related. -/
def Matched (R : α → β → Prop) (xs : List α) (ys : List β) : Prop :=
  ∃ middle, xs.Perm middle ∧ List.Forall₂ R middle ys

theorem exists_forall₂_of_perm
    {xs ys : List α} {found : List β} (hperm : xs.Perm ys) (h : List.Forall₂ R xs found) :
    ∃ others, found.Perm others ∧ List.Forall₂ R ys others := by
  obtain ⟨others, hothers, hfound⟩ := List.perm_comp_forall₂ hperm.symm h
  exact ⟨others, hfound.symm, hothers⟩

theorem Matched.exists_left
    {xs : List α} {ys : List β} (h : Matched R xs ys) {y : β} (hy : y ∈ ys) :
    ∃ x ∈ xs, R x y := by
  obtain ⟨middle, hperm, hpairs⟩ := h
  obtain ⟨x, hx, hrel⟩ := forall₂_exists_left hpairs hy
  exact ⟨x, hperm.mem_iff.mpr hx, hrel⟩

theorem Matched.exists_right
    {xs : List α} {ys : List β} (h : Matched R xs ys) {x : α} (hx : x ∈ xs) :
    ∃ y ∈ ys, R x y := by
  obtain ⟨middle, hperm, hpairs⟩ := h
  exact forall₂_exists_left hpairs.flip (hperm.mem_iff.mp hx)

/-- Lists with the same keys up to order are matched if members with the same key are related. -/
theorem matched_of_map_perm
    {γ : Type} {f : α → γ} {g : β → γ} {xs : List α} {ys : List β}
    (hperm : (xs.map f).Perm (ys.map g))
    (hrel : ∀ x ∈ xs, ∀ y ∈ ys, f x = g y → R x y) : Matched R xs ys := by
  have hself : List.Forall₂ (fun key x => f x = key) (xs.map f) xs :=
    List.forall₂_map_left_iff.mpr (List.forall₂_same.mpr fun _ _ => rfl)
  obtain ⟨middle, hmiddle, hkeys⟩ := exists_forall₂_of_perm hperm hself
  have hpairs : List.Forall₂ (fun x y => f x = g y) middle ys :=
    (List.forall₂_map_left_iff.mp hkeys).flip
  refine ⟨middle, hmiddle, ?_⟩
  rw [List.forall₂_iff_zip] at hpairs ⊢
  refine ⟨hpairs.1, fun hmem => ?_⟩
  obtain ⟨hx, hy⟩ := List.of_mem_zip hmem
  exact hrel _ (hmiddle.mem_iff.mpr hx) _ hy (hpairs.2 hmem)

theorem Matched.flatMap_perm
    {γ : Type} {R : α → α → Prop} (f : α → List γ) (hf : ∀ {x y}, R x y → (f x).Perm (f y))
    {xs ys : List α} (h : Matched R xs ys) : (xs.flatMap f).Perm (ys.flatMap f) := by
  obtain ⟨middle, hperm, hpairs⟩ := h
  refine (hperm.flatMap_right f).trans ?_
  clear hperm
  induction hpairs with
  | nil => exact .refl _
  | cons hrel _ ih =>
      rw [List.flatMap_cons, List.flatMap_cons]
      exact (hf hrel).append ih

end Lists

/-! ## Columns without their expressions -/

/-- The name, the role and the type of a column. -/
def Column.signature (column : Column) : String × ColumnRole × Option DataType :=
  (column.name, column.role, column.dataType)

/-- If `g` answers wherever `f` does, with a column of the same signature, then it answers for the members of a
list in any order. -/
theorem exists_columns_of_perm
    {α : Type} {f g : α → Except Failure Column}
    (hstep : ∀ {x column}, f x = .ok column →
      ∃ found, g x = .ok found ∧ found.signature = column.signature)
    {xs ys : List α} {columns : List Column} (hperm : xs.Perm ys)
    (h : List.Forall₂ (fun x column => f x = .ok column) xs columns) :
    ∃ others, List.Forall₂ (fun y column => g y = .ok column) ys others ∧
      (columns.map Column.signature).Perm (others.map Column.signature) := by
  obtain ⟨middle, hmiddle, hpairs⟩ := exists_forall₂_of_perm hperm h
  have hothers : ∃ others, List.Forall₂ (fun y column => g y = .ok column) ys others ∧
      others.map Column.signature = middle.map Column.signature := by
    clear hperm h hmiddle
    induction hpairs with
    | nil => exact ⟨[], .nil, rfl⟩
    | cons hfirst _ ih =>
        obtain ⟨found, hfound, hsame⟩ := hstep hfirst
        obtain ⟨others, hothers, hrest⟩ := ih
        exact ⟨found :: others, .cons hfound hothers, by simp [hsame, hrest]⟩
  obtain ⟨others, hothers, hsame⟩ := hothers
  exact ⟨others, hothers, hsame ▸ hmiddle.map Column.signature⟩

namespace Plan

/-- What is known of the columns of a stage from outside. -/
def signatures (plan : Plan) : List (String × ColumnRole × Option DataType) :=
  plan.columns.map Column.signature

theorem columnNames_eq_map_signatures (plan : Plan) :
    plan.columnNames = plan.signatures.map Prod.fst := by
  simp [columnNames, signatures, Column.signature, Function.comp_def]

/-- Two stages with the same columns up to order, under different names. -/
structure Alike (plan other : Plan) : Prop where
  nodup : plan.columnNames.Nodup
  signatures : plan.signatures.Perm other.signatures

section Alike

variable {plan other : Plan}

theorem Alike.columnNames (h : plan.Alike other) : plan.columnNames.Perm other.columnNames := by
  rw [columnNames_eq_map_signatures, columnNames_eq_map_signatures]
  exact h.signatures.map Prod.fst

theorem Alike.nodup_right (h : plan.Alike other) : other.columnNames.Nodup :=
  h.columnNames.nodup_iff.mp h.nodup

theorem Alike.symm (h : plan.Alike other) : other.Alike plan :=
  ⟨h.nodup_right, h.signatures.symm⟩

theorem Alike.column?
    (h : plan.Alike other) {name : String} {column : Column}
    (hcolumn : plan.column? name = some column) :
    ∃ found, other.column? name = some found ∧ found.signature = column.signature := by
  obtain ⟨hmem, rfl⟩ := column?_mem hcolumn
  have hsignature : column.signature ∈ other.signatures :=
    h.signatures.mem_iff.mp (List.mem_map_of_mem hmem)
  obtain ⟨found, hfound, hsame⟩ := List.mem_map.mp hsignature
  have hname : found.name = column.name := congrArg Prod.fst hsame
  refine ⟨found, ?_, hsame⟩
  rw [← hname]
  exact column?_of_mem h.nodup_right hfound

theorem Alike.column?_signature (h : plan.Alike other) (name : String) :
    (plan.column? name).map Column.signature = (other.column? name).map Column.signature := by
  cases hcolumn : plan.column? name with
  | some column =>
      obtain ⟨found, hfound, hsame⟩ := h.column? hcolumn
      simp [hfound, hsame]
  | none =>
      cases hfound : other.column? name with
      | none => rfl
      | some found =>
          obtain ⟨column, hsome, -⟩ := h.symm.column? hfound
          cases hcolumn.symm.trans hsome

end Alike

end Plan

/-! ## Reading -/

theorem Model.elementColumn_signature
    (tableAlias other : String) (ref : ElementRef) (element : Element) :
    (elementColumn other ref element).signature =
      (elementColumn tableAlias ref element).signature := by
  cases element with
  | entity entity => rfl
  | dimension dimension =>
      simp only [elementColumn]
      split <;> rfl
  | measure measure => rfl

/-- The elements can be read in any order, under any aliases. -/
theorem Model.read_alike
    {model : Model} {elements others : List ElementRef} {supply supply' : AliasSupply}
    {node : Plan} (hperm : elements.Perm others)
    (h : model.read elements supply = (.ok node, supply')) (start : AliasSupply) :
    ∃ found last, model.read others start = (.ok found, last) ∧ node.Alike found := by
  obtain ⟨-, hnodup⟩ := read_columnNames h
  obtain ⟨hne, columns, hbind, rfl, -⟩ := read_eq_ok.mp h
  have hstep : ∀ {ref column},
      model.bindElement (AliasSupply.tableAlias model.name supply.tables) ref = .ok column →
      ∃ found, model.bindElement (AliasSupply.tableAlias model.name start.tables) ref =
        .ok found ∧ found.signature = column.signature := by
    intro ref column hbound
    obtain ⟨element, helement, hcheck, rfl⟩ := bindElement_eq_ok.mp hbound
    exact ⟨_, bindElement_eq_ok.mpr ⟨element, helement, hcheck, rfl⟩,
      elementColumn_signature _ _ ref element⟩
  obtain ⟨found, hfound, hsame⟩ :=
    exists_columns_of_perm hstep hperm (bindAll_eq_ok.mp hbind).1
  set result : Plan := .read (AliasSupply.subqueryAlias start.subqueries) model.name model.table
    (AliasSupply.tableAlias model.name start.tables) found with hresult
  have halike : (Plan.read (AliasSupply.subqueryAlias supply.subqueries) model.name model.table
      (AliasSupply.tableAlias model.name supply.tables) columns).Alike result :=
    ⟨hnodup, hsame⟩
  refine ⟨result, _, read_eq_ok.mpr ⟨?_, found, ?_, hresult, rfl⟩, halike⟩
  · rintro rfl
    exact hne hperm.eq_nil
  · exact bindAll_eq_ok.mpr ⟨hfound, halike.nodup_right⟩

namespace LinkedRead

/-- Reads of the same elements in any order. -/
structure Alike (read other : LinkedRead) : Prop where
  entity_eq : read.entity = other.entity
  model_eq : read.model = other.model
  elements : read.elements.Perm other.elements

end LinkedRead

/-- Targets that are joined in the same way, with alike nodes. -/
structure JoinTarget.Alike (target other : JoinTarget) : Prop where
  node : target.node.Alike other.node
  keys_eq : target.keys = other.keys
  qualifier_eq : target.qualifier = other.qualifier

theorem LinkedRead.Alike.target
    {time : Option String} {read other : LinkedRead} {node found : Plan}
    (h : read.Alike other) (hnodes : node.Alike found) :
    (read.target time node).Alike (other.target time found) where
  node := hnodes
  keys_eq := by simp [LinkedRead.target, h.entity_eq]
  qualifier_eq := by simp [LinkedRead.target, h.entity_eq]

theorem LinkedRead.readAll_alike
    {time : Option String} {reads others : List LinkedRead} {targets : List JoinTarget}
    (hreads : List.Forall₂ LinkedRead.Alike reads others)
    (htargets : List.Forall₂ (IsTarget time) reads targets) (start : AliasSupply) :
    ∃ found last, readAll time others start = .ok (found, last) ∧
      List.Forall₂ JoinTarget.Alike targets found := by
  induction hreads generalizing targets start with
  | nil =>
      rw [List.forall₂_nil_left_iff] at htargets
      subst htargets
      exact ⟨[], start, rfl, .nil⟩
  | @cons read other reads others hread _ ih =>
      obtain ⟨target, rest, htarget, hrest, rfl⟩ := List.forall₂_cons_left_iff.mp htargets
      obtain ⟨node, before, after, hnode, rfl⟩ := htarget
      obtain ⟨found, middle, hfound, halike⟩ := Model.read_alike hread.elements hnode start
      obtain ⟨targets, last, htargets, hpairs⟩ := ih hrest middle
      refine ⟨other.target time found :: targets, last, ?_, .cons (hread.target halike) hpairs⟩
      rw [hread.model_eq] at hfound
      rw [readAll, hfound]
      simp only [htargets]
      rfl

/-- The linked models can be read in any order, under any aliases. -/
theorem LinkedRead.readAll_matched
    {time : Option String} {reads others : List LinkedRead} {targets : List JoinTarget}
    {supply supply' : AliasSupply} (hreads : Matched LinkedRead.Alike reads others)
    (h : readAll time reads supply = .ok (targets, supply')) (start : AliasSupply) :
    ∃ found last, readAll time others start = .ok (found, last) ∧
      Matched JoinTarget.Alike targets found := by
  obtain ⟨middle, hperm, hpairs⟩ := hreads
  obtain ⟨permuted, htargets, hread⟩ := exists_forall₂_of_perm hperm (readAll_eq_ok h).1
  obtain ⟨found, last, hfound, halike⟩ := readAll_alike hpairs hread start
  exact ⟨found, last, hfound, permuted, htargets, halike⟩

/-! ## Joining -/

namespace JoinTarget

/-- What a target adds to the left side. -/
def signatures (target : JoinTarget) : List (String × ColumnRole × Option DataType) :=
  (target.node.signatures.filter fun signature => !target.keys.contains signature.1).map
    fun signature => (target.rename signature.1, signature.2)

theorem gains_signatures (target : JoinTarget) :
    target.gains.map (fun left => left.toColumn.signature) = target.signatures := by
  simp only [gains, contributed, signatures, Plan.signatures, List.filter_map, List.map_map]
  rfl

theorem Alike.signatures {target other : JoinTarget} (h : target.Alike other) :
    target.signatures.Perm other.signatures := by
  have hrename : target.rename = other.rename := by
    funext name
    simp [rename, h.qualifier_eq]
  unfold JoinTarget.signatures
  rw [h.keys_eq, hrename]
  exact (h.node.signatures.filter _).map _

end JoinTarget

theorem Plan.joinTargets_signatures
    {primary node : Plan} {targets : List JoinTarget} {supply supply' : AliasSupply}
    (h : primary.joinTargets targets supply = (.ok node, supply')) :
    node.signatures = primary.signatures ++ targets.flatMap JoinTarget.signatures := by
  rcases joinTargets_eq_ok h with ⟨rfl, rfl, -⟩ | ⟨joined, -, -, -, rfl, -⟩
  · simp
  · have hprimary : primary.leftColumns.map (fun left => left.toColumn.signature) =
        primary.signatures := by
      simp [leftColumns, signatures, Column.signature, LeftColumn.toColumn,
        LeftColumn.ofColumn, Function.comp_def]
    have htargets : (targets.flatMap JoinTarget.gains).map
        (fun left => left.toColumn.signature) = targets.flatMap JoinTarget.signatures := by
      rw [List.map_flatMap]
      exact List.flatMap_congr fun target _ => target.gains_signatures
    rw [signatures, columns, List.map_map, List.map_append]
    exact congrArg₂ _ hprimary htargets

namespace LinkedRead

variable {time : Option String} {primary other : Plan}

theorem Matches.alike
    {read found : LinkedRead} (h : read.Matches time primary) (hprimary : primary.Alike other)
    (hread : read.Alike found) : found.Matches time other := by
  have hcolumns : ∀ name ∈ primary.columnNames, name ∈ other.columnNames :=
    fun name => hprimary.columnNames.mem_iff.mp
  have helements : ∀ name ∈ read.elements.map ElementRef.columnName,
      name ∈ found.elements.map ElementRef.columnName :=
    fun name => (hread.elements.map _).mem_iff.mp
  refine ⟨?_, fun name hname => hcolumns _ (h.time_left name hname), ?_, ?_⟩
  · exact hread.entity_eq ▸ hcolumns _ h.entity_left
  · exact hread.entity_eq ▸ helements _ h.entity_right
  · intro window hwindow
    rw [← hread.model_eq] at hwindow
    obtain ⟨hstart, hstop⟩ := h.window_right window hwindow
    exact ⟨helements _ hstart, helements _ hstop⟩

theorem Differs.alike
    {read found : LinkedRead} {failure : Failure} (h : found.Differs other failure)
    (hprimary : primary.Alike other) (hread : read.Alike found) :
    read.Differs primary failure := by
  obtain ⟨column, left, right, hcolumn, hleft, hright, hne, rfl⟩ := h
  obtain ⟨source, hsource, hsame⟩ := hprimary.symm.column? hcolumn
  have htype : source.dataType = column.dataType := congrArg (·.2.2) hsame
  obtain ⟨ref, href, hname, element, helement, helementType⟩ := hright
  rw [← hread.entity_eq] at hsource hname ⊢
  rw [← hread.model_eq] at helement
  exact ⟨source, left, right, hsource, htype.trans hleft,
    ⟨ref, hread.elements.mem_iff.mpr href, hname, element, helement, helementType⟩, hne, rfl⟩

/-- A linked model that was attached agrees with the primary relation on the type of the entity. -/
theorem attach_not_differs
    {read : LinkedRead} {target : JoinTarget} {extra left : List LeftColumn}
    {joined : Joined Plan} {failure : Failure} (htarget : IsTarget time read target)
    (h : target.attach primary.aliasName (primary.leftColumns ++ extra) = .ok (left, joined)) :
    ¬ read.Differs primary failure := by
  rintro ⟨column, leftType, rightType, hcolumn, hleft, ⟨ref, href, hname, element, helement,
    helementType⟩, hne, -⟩
  obtain ⟨node, before, after, hnode, rfl⟩ := htarget
  obtain ⟨hmem, hcolumnName⟩ := Plan.column?_mem hcolumn
  have hentity : read.entity ∈ primary.columnNames :=
    hcolumnName ▸ List.mem_map_of_mem hmem
  obtain ⟨source, hsource, hfound⟩ := LeftColumn.find?_leftColumns extra hentity
  cases hcolumn.symm.trans hsource
  obtain ⟨shown, hshown, -, right, hright, -, hrightType⟩ := Model.read_shows hnode href
  cases helement.symm.trans hshown
  rw [hname] at hright
  obtain ⟨-, keys, window, hkeys, -⟩ := JoinTarget.attach_eq_ok h
  obtain ⟨key, rest, hkey, -⟩ := List.forall₂_cons_left_iff.mp hkeys
  have hrightColumn : (read.target time node).node.column? read.entity = some right := hright
  have hleftType : (LeftColumn.ofColumn primary.aliasName id column).dataType = some leftType :=
    hleft
  unfold JoinTarget.matchKey at hkey
  simp only [hfound, hrightColumn, hleftType, hrightType.trans helementType, if_neg hne] at hkey
  cases hkey

theorem attachAll_not_differs
    {reads : List LinkedRead} {targets : List JoinTarget} {extra left : List LeftColumn}
    {joined : List (Joined Plan)} {failure : Failure}
    (htargets : List.Forall₂ (IsTarget time) reads targets)
    (h : JoinTarget.attachAll primary.aliasName (primary.leftColumns ++ extra) targets =
      .ok (left, joined)) :
    ∀ read ∈ reads, ¬ read.Differs primary failure := by
  induction htargets generalizing extra joined with
  | nil => simp
  | cons htarget _ ih =>
      obtain ⟨first, others, hattach, hrest, rfl⟩ := JoinTarget.attachAll_cons_eq_ok h
      rw [List.append_assoc] at hrest
      rw [List.forall_mem_cons]
      exact ⟨attach_not_differs htarget hattach, ih hrest⟩

end LinkedRead

namespace Plan

variable {primary other node : Plan} {time : Option String} {reads readOthers : List LinkedRead}
  {targets found : List JoinTarget} {supply supply' : AliasSupply}

theorem joinTargets_not_differs
    {failure : Failure} (htargets : List.Forall₂ (LinkedRead.IsTarget time) reads targets)
    (h : primary.joinTargets targets supply = (.ok node, supply')) :
    ∀ read ∈ reads, ¬ read.Differs primary failure := by
  rcases joinTargets_eq_ok h with ⟨rfl, -⟩ | ⟨joined, -, hattach, -⟩
  · rw [List.forall₂_nil_right_iff.mp htargets]
    simp
  · rw [← List.append_nil primary.leftColumns] at hattach
    exact LinkedRead.attachAll_not_differs htargets hattach

theorem names_gains_eq (primary : Plan) (targets : List JoinTarget) :
    primary.columnNames ++ (targets.flatMap JoinTarget.gains).map (·.name) =
      (primary.signatures ++ targets.flatMap JoinTarget.signatures).map Prod.fst := by
  rw [List.map_append, ← columnNames_eq_map_signatures, List.map_flatMap, List.map_flatMap]
  refine congrArg _ (List.flatMap_congr fun target _ => ?_)
  rw [← target.gains_signatures, List.map_map]
  rfl

/-- The linked models can be joined in any order. -/
theorem joinTargets_alike
    (hprimary : primary.Alike other) (hreads : Matched LinkedRead.Alike reads readOthers)
    (htargets : List.Forall₂ (LinkedRead.IsTarget time) reads targets)
    (hfound : List.Forall₂ (LinkedRead.IsTarget time) readOthers found)
    (halike : Matched JoinTarget.Alike targets found)
    (hmatches : ∀ read ∈ reads, read.Matches time primary)
    (h : primary.joinTargets targets supply = (.ok node, supply')) (start : AliasSupply) :
    ∃ result last, other.joinTargets found start = (.ok result, last) ∧ node.Alike result := by
  have hnodup := joinTargets_nodup h hprimary.nodup
  have hsignatures : (primary.signatures ++ targets.flatMap JoinTarget.signatures).Perm
      (other.signatures ++ found.flatMap JoinTarget.signatures) :=
    hprimary.signatures.append
      (halike.flatMap_perm JoinTarget.signatures JoinTarget.Alike.signatures)
  cases hjoin : other.joinTargets found start with
  | mk answer last =>
      cases answer with
      | ok result =>
          refine ⟨result, last, rfl, hnodup, ?_⟩
          rw [joinTargets_signatures h, joinTargets_signatures hjoin]
          exact hsignatures
      | error failure =>
          exfalso
          have hothers : ∀ read ∈ readOthers, read.Matches time other := by
            intro read hread
            obtain ⟨source, hsource, hpair⟩ := hreads.exists_left hread
            exact (hmatches source hsource).alike hprimary hpair
          rcases joinTargets_failure hfound hothers hjoin with
            ⟨read, hread, hdiffers⟩ | ⟨-, hnot⟩
          · obtain ⟨source, hsource, hpair⟩ := hreads.exists_left hread
            exact joinTargets_not_differs htargets h source hsource
              (hdiffers.alike hprimary hpair)
          · apply hnot
            rw [names_gains_eq, ← (hsignatures.map Prod.fst).nodup_iff,
              ← joinTargets_signatures h, ← columnNames_eq_map_signatures]
            exact hnodup

end Plan

/-! ## Aggregating -/

theorem MeasureTerm.exists_expr
    {term : MeasureTerm} {column e : Expr} (h : term.expr column = .ok e) (other : Expr) :
    ∃ found, term.expr other = .ok found := by
  cases hother : term.expr other with
  | ok found => exact ⟨found, rfl⟩
  | error failure =>
      obtain ⟨fraction, discrete, approximate, haggregation, hrange, -⟩ := expr_eq_error hother
      simp only [MeasureTerm.expr, haggregation, if_neg hrange] at h
      cases h

namespace Plan

theorem Alike.keyColumn
    {input other : Plan} (hinput : input.Alike other) {key : String} {column : Column}
    (h : input.keyColumn key = .ok column) :
    ∃ found, other.keyColumn key = .ok found ∧ found.signature = column.signature := by
  obtain ⟨source, hsource, hrole, rfl⟩ := keyColumn_eq_ok h
  obtain ⟨found, hfound, hsame⟩ := hinput.column? hsource
  have hfoundRole : found.role = source.role := congrArg (·.2.1) hsame
  refine ⟨found.through other.aliasName, ?_, hsame⟩
  simp only [Plan.keyColumn, hfound, hfoundRole, hrole, if_true]

theorem Alike.measureColumn
    {input other : Plan} (hinput : input.Alike other) {term : MeasureTerm} {column : Column}
    (h : input.measureColumn term = .ok column) :
    ∃ found, other.measureColumn term = .ok found ∧ found.signature = column.signature := by
  obtain ⟨source, e, hsource, hrole, hexpr, rfl⟩ := measureColumn_eq_ok h
  obtain ⟨found, hfound, hsame⟩ := hinput.column? hsource
  have hfoundRole : found.role = .measure := (congrArg (·.2.1) hsame).trans hrole
  have hfoundType : found.dataType = source.dataType := congrArg (·.2.2) hsame
  obtain ⟨expr, hother⟩ :=
    MeasureTerm.exists_expr hexpr (.of other.aliasName term.name)
  refine ⟨⟨term.name, expr, .measure, term.aggregation.resultType source.dataType⟩, ?_, rfl⟩
  simp only [Plan.measureColumn, hfound, Option.filter_some, hfoundRole, decide_true, if_true,
    hother, hfoundType]
  rfl

theorem aggregateColumns_of_forall₂
    {input : Plan} {keys : GroupKeys} {measures : List MeasureTerm}
    {keyColumns measureColumns : List Column} (hsome : keys.names ≠ [] ∨ measures ≠ [])
    (hkeys : List.Forall₂ (fun key column => input.keyColumn key = .ok column) keys.names
      keyColumns)
    (hmeasures : List.Forall₂ (fun term column => input.measureColumn term = .ok column) measures
      measureColumns)
    (hnodup : ((keyColumns ++ measureColumns).map (·.name)).Nodup) :
    input.aggregateColumns keys measures = .ok (keyColumns ++ measureColumns) := by
  have hempty : ¬ (keys.names.isEmpty && measures.isEmpty) = true := by
    rwa [Bool.and_eq_true, List.isEmpty_iff, List.isEmpty_iff, not_and_or]
  unfold aggregateColumns
  rw [if_neg hempty]
  simp only [bind_eq_ok, mapM_eq_ok]
  exact ⟨keyColumns, hkeys, measureColumns, hmeasures, (), ensureUnique_eq_ok.mpr hnodup, rfl⟩

/-- Rows can be grouped by the keys, and measures aggregated, in any order. -/
theorem aggregateBy_alike
    {input other node : Plan} {keys keyOthers : GroupKeys}
    {measures measureOthers : List MeasureTerm} {supply supply' : AliasSupply}
    (hinput : input.Alike other) (hkeys : keys.names.Perm keyOthers.names)
    (hmeasures : measures.Perm measureOthers)
    (h : input.aggregateBy keys measures supply = (.ok node, supply')) (start : AliasSupply) :
    ∃ result last, other.aggregateBy keyOthers measureOthers start = (.ok result, last) ∧
      result.groupKeys? = some keyOthers ∧ node.Alike result := by
  obtain ⟨-, hnodup⟩ := aggregateBy_columnNames h
  obtain ⟨columns, hcolumns, rfl, -⟩ := aggregateBy_eq_ok h
  obtain ⟨hsome, keyColumns, measureColumns, hkeyColumns, hmeasureColumns, rfl, -⟩ :=
    aggregateColumns_eq_ok hcolumns
  obtain ⟨foundKeys, hfoundKeys, hkeySame⟩ :=
    exists_columns_of_perm hinput.keyColumn hkeys hkeyColumns
  obtain ⟨foundMeasures, hfoundMeasures, hmeasureSame⟩ :=
    exists_columns_of_perm hinput.measureColumn hmeasures hmeasureColumns
  set result : Plan := .aggregate (AliasSupply.subqueryAlias start.subqueries) other keyOthers
    measureOthers (foundKeys ++ foundMeasures) with hresult
  have halike : (aggregate (AliasSupply.subqueryAlias supply.subqueries) input keys measures
      (keyColumns ++ measureColumns)).Alike result := by
    refine ⟨hnodup, ?_⟩
    simp only [hresult, signatures, Plan.columns, List.map_append]
    exact hkeySame.append hmeasureSame
  have hsomeOther : keyOthers.names ≠ [] ∨ measureOthers ≠ [] := by
    refine hsome.imp (fun hne hnil => ?_) fun hne hnil => ?_
    · exact hne (hnil ▸ hkeys).eq_nil
    · exact hne (hnil ▸ hmeasures).eq_nil
  have hotherColumns :=
    aggregateColumns_of_forall₂ hsomeOther hfoundKeys hfoundMeasures halike.nodup_right
  refine ⟨result, start.subquery.2, ?_, rfl, halike⟩
  unfold aggregateBy
  rw [hotherColumns]
  rfl

end Plan

/-! ## Computing metrics -/

theorem Formula.compile_alike
    {input other : Plan} {metric : String} (hinput : input.Alike other) {formula : Formula}
    {e : Expr} {dataType : Option DataType}
    (h : formula.compile input metric = .ok (e, dataType)) :
    ∃ found, formula.compile other metric = .ok (found, dataType) := by
  induction formula generalizing e dataType with
  | input name =>
      simp only [compile] at h ⊢
      cases hcolumn : input.column? name with
      | none => simp [hcolumn] at h
      | some column =>
          obtain ⟨found, hfound, hsame⟩ := hinput.column? hcolumn
          have hrole : found.role = column.role := congrArg (·.2.1) hsame
          have htype : found.dataType = column.dataType := congrArg (·.2.2) hsame
          rw [hcolumn, Option.filter_some] at h
          rw [hfound, Option.filter_some, hrole]
          by_cases hkind : (decide (column.role = .measure) ||
              decide (column.role = .metric)) = true
          · rw [if_pos hkind] at h ⊢
            cases h
            exact ⟨.of other.aliasName name, by simp only [htype]⟩
          · rw [if_neg hkind] at h
            cases h
  | literal value => exact ⟨e, h⟩
  | neg operand ih =>
      simp only [compile, bind_eq_ok] at h ⊢
      obtain ⟨⟨inner, innerType⟩, hinner, ⟨⟩⟩ := h
      obtain ⟨found, hfound⟩ := ih hinner
      exact ⟨_, _, hfound, rfl⟩
  | binary operator left right ihleft ihright =>
      simp only [compile, bind_eq_ok] at h ⊢
      obtain ⟨⟨l, leftType⟩, hleft, ⟨r, rightType⟩, hright, ⟨⟩⟩ := h
      obtain ⟨foundLeft, hfoundLeft⟩ := ihleft hleft
      obtain ⟨foundRight, hfoundRight⟩ := ihright hright
      exact ⟨_, _, hfoundLeft, _, hfoundRight, rfl⟩
  | ratio numerator denominator ihnum ihden =>
      simp only [compile, bind_eq_ok] at h ⊢
      obtain ⟨⟨num, numType⟩, hnum, ⟨den, denType⟩, hden, ⟨⟩⟩ := h
      obtain ⟨foundNum, hfoundNum⟩ := ihnum hnum
      obtain ⟨foundDen, hfoundDen⟩ := ihden hden
      exact ⟨_, _, hfoundNum, _, hfoundDen, rfl⟩

namespace Plan

theorem Alike.metricColumn
    {input other : Plan} (hinput : input.Alike other) {term : MetricTerm} {column : Column}
    (h : input.metricColumn term = .ok column) :
    ∃ found, other.metricColumn term = .ok found ∧ found.signature = column.signature := by
  obtain ⟨e, dataType, hcompile, rfl⟩ := metricColumn_eq_ok h
  obtain ⟨found, hfound⟩ := Formula.compile_alike hinput hcompile
  refine ⟨⟨term.name, found, .metric, dataType⟩, ?_, rfl⟩
  simp only [Plan.metricColumn, hfound]
  rfl

theorem Alike.keyColumns_signatures
    {input other : Plan} (hinput : input.Alike other) {names nameOthers : List String}
    (hnames : names.Perm nameOthers) :
    (((names.filterMap input.column?).map (·.through input.aliasName)).map
        Column.signature).Perm
      (((nameOthers.filterMap other.column?).map (·.through other.aliasName)).map
        Column.signature) := by
  have hsignature : ∀ aliasName, Column.signature ∘ Column.through aliasName =
      Column.signature := fun _ => rfl
  have hlookup : (fun name => (input.column? name).map Column.signature) =
      fun name => (other.column? name).map Column.signature :=
    funext hinput.column?_signature
  rw [List.map_map, List.map_map, hsignature, hsignature, List.map_filterMap,
    List.map_filterMap, hlookup]
  exact hnames.filterMap _

theorem metricParts_of_forall₂
    {input : Plan} {keys : GroupKeys} {terms : List MetricTerm} {columns : List Column}
    (hgrouped : input.groupKeys? = some keys) (hne : terms ≠ [])
    (hcolumns : List.Forall₂ (fun term column => input.metricColumn term = .ok column) terms
      columns)
    (hnodup : (((keys.names.filterMap input.column?).map (·.through input.aliasName) ++
      columns).map (·.name)).Nodup) :
    input.metricParts terms = .ok (keys,
      (keys.names.filterMap input.column?).map (·.through input.aliasName) ++ columns) := by
  have hempty : ¬ terms.isEmpty = true := by rwa [List.isEmpty_iff]
  unfold metricParts
  simp only [hgrouped]
  rw [if_neg hempty]
  simp only [bind_eq_ok, mapM_eq_ok]
  exact ⟨columns, hcolumns, (), ensureUnique_eq_ok.mpr hnodup, rfl⟩

/-- Metrics can be computed in any order. -/
theorem computeMetrics_alike
    {input other node : Plan} {keys keyOthers : GroupKeys} {terms termOthers : List MetricTerm}
    {supply supply' : AliasSupply} (hinput : input.Alike other)
    (hgrouped : input.groupKeys? = some keys) (hgroupedOther : other.groupKeys? = some keyOthers)
    (hkeys : keys.names.Perm keyOthers.names) (hterms : terms.Perm termOthers)
    (h : input.computeMetrics terms supply = (.ok node, supply')) (start : AliasSupply) :
    ∃ result last, other.computeMetrics termOthers start = (.ok result, last) ∧
      node.Alike result := by
  obtain ⟨found, columns, hparts, rfl, -⟩ := computeMetrics_eq_ok h
  obtain ⟨hfound, hne, metricColumns, hmetrics, rfl, hnodup⟩ := metricParts_eq_ok hparts
  cases hgrouped.symm.trans hfound
  obtain ⟨foundMetrics, hfoundMetrics, hmetricSame⟩ :=
    exists_columns_of_perm hinput.metricColumn hterms hmetrics
  set others := (keyOthers.names.filterMap other.column?).map (·.through other.aliasName) ++
    foundMetrics with hothers
  set result : Plan := .metrics (AliasSupply.subqueryAlias start.subqueries) other keyOthers
    termOthers others with hresult
  have halike : (metrics (AliasSupply.subqueryAlias supply.subqueries) input keys terms
      ((keys.names.filterMap input.column?).map (·.through input.aliasName) ++
        metricColumns)).Alike result := by
    refine ⟨hnodup, ?_⟩
    simp only [hresult, hothers, signatures, Plan.columns, List.map_append]
    exact (hinput.keyColumns_signatures hkeys).append hmetricSame
  have hneOther : termOthers ≠ [] := by
    rintro rfl
    exact hne hterms.eq_nil
  have hotherParts :=
    metricParts_of_forall₂ hgroupedOther hneOther hfoundMetrics halike.nodup_right
  refine ⟨result, start.subquery.2, ?_, halike⟩
  unfold computeMetrics
  rw [hotherParts]
  rfl

end Plan

end MetricSql
