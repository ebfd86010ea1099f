import MetricSql.Proofs.Plan.Resolved

/-!
# Refused requests

Why the names of a request cannot be resolved.  All these causes are found before
a stage is built.
-/

namespace MetricSql

/-! ## Failing steps -/

theorem bind_eq_error {ε α β : Type} {x : Except ε α} {f : α → Except ε β} {e : ε} :
    (x >>= f) = .error e ↔ x = .error e ∨ ∃ a, x = .ok a ∧ f a = .error e := by
  cases x <;> simp [bind, Except.bind]

theorem mapM_eq_error {ε α β : Type} {f : α → Except ε β} {xs : List α} {e : ε}
    (h : xs.mapM f = .error e) : ∃ x ∈ xs, f x = .error e := by
  induction xs with
  | nil => cases h
  | cons x rest ih =>
      simp only [List.mapM_cons, bind_eq_error] at h
      rcases h with hx | ⟨y, -, hrest | ⟨ys, -, ⟨⟩⟩⟩
      · exact ⟨x, List.mem_cons_self, hx⟩
      · obtain ⟨found, hfound, heq⟩ := ih hrest
        exact ⟨found, List.mem_cons_of_mem _ hfound, heq⟩

/-- A fold fails at some item, in a state that still has the property kept by
every step. -/
theorem foldlM_eq_error {ε α σ : Type} {f : σ → α → Except ε σ} {P : List α → σ → Prop}
    (hstep : ∀ {done s x s'}, P done s → f s x = .ok s' → P (done ++ [x]) s')
    {xs : List α} {s : σ} {e : ε} (hs : P [] s) (h : xs.foldlM f s = .error e) :
    ∃ done x rest s', xs = done ++ x :: rest ∧ P done s' ∧ f s' x = .error e := by
  have hall : ∀ before, P before s →
      ∃ done x rest s', xs = done ++ x :: rest ∧ P (before ++ done) s' ∧ f s' x = .error e := by
    clear hs
    induction xs generalizing s with
    | nil => cases h
    | cons x rest ih =>
        intro before hbefore
        rw [List.foldlM_cons, bind_eq_error] at h
        rcases h with hx | ⟨middle, hx, hrest⟩
        · exact ⟨[], x, rest, s, rfl, by simpa using hbefore, hx⟩
        · obtain ⟨done, y, others, s', rfl, hdone, hy⟩ := ih hrest _ (hstep hbefore hx)
          exact ⟨x :: done, y, others, s', rfl, by simpa using hdone, hy⟩
  simpa using hall [] hs

theorem exists_eq_error_of_foldlM {ε α σ : Type} {f : σ → α → Except ε σ} {xs : List α} {s : σ}
    {e : ε} (h : xs.foldlM f s = .error e) : ∃ x ∈ xs, ∃ s', f s' x = .error e := by
  rcases foldlM_eq_error (P := fun _ _ => True) (fun _ _ => trivial) trivial h with
    ⟨done, x, rest, s', rfl, -, hx⟩
  exact ⟨x, by simp, s', hx⟩

theorem firstRepeated?_eq_some {names : List String} {name : String}
    (h : firstRepeated? [] names = some name) : ¬ names.Nodup := by
  intro hnodup
  have hnone := (firstRepeated?_eq_none_iff [] names).mpr ⟨hnodup, by simp⟩
  rw [h] at hnone
  cases hnone

theorem ensureUnique_eq_error {stage : Stage} {columns : List Column} {failure : Failure}
    (h : ensureUnique stage columns = .error failure) :
    (∃ name, failure = .duplicateColumn stage name) ∧ ¬ (columns.map (·.name)).Nodup := by
  unfold ensureUnique at h
  split at h
  next name hname =>
    cases h
    exact ⟨⟨name, rfl⟩, firstRepeated?_eq_some hname⟩
  next => cases h

theorem GroupKeys.ofNames_eq_error {names : List String} {failure : Failure}
    (h : GroupKeys.ofNames names = .error failure) :
    (∃ name, failure = .duplicateColumn .aggregate name) ∧ ¬ names.Nodup := by
  unfold GroupKeys.ofNames at h
  split at h
  next name hname =>
    cases h
    exact ⟨⟨name, rfl⟩, firstRepeated?_eq_some hname⟩
  next => cases h

/-! ## Causes -/

/-- What is wrong with a request, and how it is reported. -/
inductive Manifest.Refuses (manifest : Manifest) (request : Request) : Failure → Prop
  | noMetrics (h : request.metrics = []) : Refuses manifest request (.emptyQuery .request)
  | metric {scope name : String} {hint : Option String} (hname : name ∈ request.metrics)
      (h : manifest.metric? name = none) :
      Refuses manifest request (.unresolvedElement .request scope name hint)
  | measure {scope input : String} {hint : Option String}
      (huses : manifest.Uses request input) (h : manifest.modelOfMeasure? input = none) :
      Refuses manifest request (.unresolvedElement .request scope input hint)
  | sources {input other : String} {model anchor : Model} (huses : manifest.Uses request input)
      (hmodel : manifest.modelOfMeasure? input = some model)
      (hother : manifest.Uses request other)
      (hanchor : manifest.modelOfMeasure? other = some anchor) (h : anchor.name ≠ model.name) :
      Refuses manifest request (.severalMeasureSources input model.name anchor.name)
  | noMeasures (h : ∀ input, ¬ manifest.Uses request input) :
      Refuses manifest request (.emptyQuery .request)
  | item {anchor : Model} {item : GroupItem} {scope name : String} {hint : Option String}
      (hanchor : manifest.Anchors request anchor) (hitem : item ∈ request.groupBy)
      (h : ¬ manifest.Resolves anchor item) :
      Refuses manifest request (.unresolvedElement .request scope name hint)
  | time {anchor model : Model} {item : GroupItem} {entity : String}
      (hanchor : manifest.Anchors request anchor) (hitem : item ∈ request.groupBy)
      (hvia : item.via = some entity)
      (hmodel : manifest.linkedModel? entity item.name anchor.name = some model)
      (hwindow : model.window ≠ none) (h : anchor.timeDimension? = none) :
      Refuses manifest request (.missingWindowTime anchor.name model.name)
  | keys {name : String} (h : ¬ (request.groupBy.map (·.columnName)).Nodup) :
      Refuses manifest request (.duplicateColumn .aggregate name)

section Resolve

variable {manifest : Manifest} {request : Request} {failure : Failure}

/-- A request whose metrics have an anchor, and whose items are found from there, is not refused. -/
theorem Manifest.Anchors.not_refuses {anchor : Model} (h : manifest.Anchors request anchor)
    (hitems : ∀ item ∈ request.groupBy, manifest.Resolves anchor item)
    (htime : ∀ item ∈ request.groupBy, ∀ entity model, item.via = some entity →
      manifest.linkedModel? entity item.name anchor.name = some model →
        model.window ≠ none → anchor.timeDimension? ≠ none)
    (hkeys : (request.groupBy.map (·.columnName)).Nodup) :
    ¬ manifest.Refuses request failure := by
  obtain ⟨input, huses⟩ := h.used
  intro hrefuses
  cases hrefuses with
  | noMetrics hnone =>
      obtain ⟨name, hname, -⟩ := huses
      rw [hnone] at hname
      cases hname
  | metric hname hnone =>
      obtain ⟨metric, hmetric⟩ := h.known _ hname
      cases hmetric.symm.trans hnone
  | measure huses hnone => cases (h.found _ huses).symm.trans hnone
  | sources huses hmodel hother hanchor hne =>
      cases (h.found _ huses).symm.trans hmodel
      cases (h.found _ hother).symm.trans hanchor
      exact hne rfl
  | noMeasures hnone => exact hnone input huses
  | item hanchor hitem hnot =>
      cases h.unique hanchor
      exact hnot (hitems _ hitem)
  | time hanchor hitem hvia hmodel hwindow hnone =>
      cases h.unique hanchor
      exact htime _ hitem _ _ hvia hmodel hwindow hnone
  | keys hnot => exact hnot hkeys

theorem MeasureSet.addInput_eq_error {metric : Metric} {set : MeasureSet} {input : String}
    (h : set.addInput manifest metric input = .error failure) :
    (manifest.modelOfMeasure? input = none ∧
        failure = MeasureSet.unresolved manifest metric input) ∨
      ∃ model anchor, manifest.modelOfMeasure? input = some model ∧
        set.anchor = some anchor ∧ anchor.name ≠ model.name ∧
        failure = .severalMeasureSources input model.name anchor.name := by
  unfold addInput at h
  split at h
  next => cases h
  next =>
    split at h
    next hnone =>
      cases h
      exact .inl ⟨hnone, rfl⟩
    next model hmodel =>
      unfold insert at h
      split at h
      next anchor hanchor =>
        split at h
        next => cases h
        next hne =>
          cases h
          exact .inr ⟨model, anchor, hmodel, hanchor, hne, rfl⟩
      next => cases h

theorem Manifest.resolveMeasures_eq_error {metrics : List Metric}
    (hmetrics : List.Forall₂ (fun name metric => manifest.metric? name = some metric)
      request.metrics metrics)
    (h : manifest.resolveMeasures metrics = .error failure) :
    manifest.Refuses request failure := by
  have huses : ∀ input, input ∈ metrics.flatMap Metric.inputs →
      manifest.Uses request input := fun _ => (Manifest.uses_iff hmetrics).mpr
  unfold Manifest.resolveMeasures at h
  rcases bind_eq_error.mp h with hfold | ⟨set, hset, hnone⟩
  · obtain ⟨done, metric, rest, set, rfl, hset, hmetric⟩ := foldlM_eq_error
      (P := fun done (set : MeasureSet) =>
        set.Collects manifest (done.flatMap Metric.inputs))
      (fun hset hmetric => by
        rw [List.flatMap_append, List.flatMap_singleton]
        exact MeasureSet.addMetric_collects hset hmetric)
      MeasureSet.collects_empty hfold
    obtain ⟨before, input, after, set', hinputs, hset', hinput⟩ := foldlM_eq_error
      (P := fun before (set' : MeasureSet) =>
        set'.Collects manifest (done.flatMap Metric.inputs ++ before))
      (fun hset hinput => by
        rw [← List.append_assoc]
        exact MeasureSet.addInput_collects hset hinput)
      (by simpa using hset) hmetric
    have hused : manifest.Uses request input := by
      apply huses
      simp [hinputs]
    rcases MeasureSet.addInput_eq_error hinput with ⟨hnone, rfl⟩ |
      ⟨model, anchor, hmodel, hanchor, hne, rfl⟩
    · exact .measure hused hnone
    · obtain ⟨other, hother, hfound⟩ := hset'.anchor_found anchor hanchor
      refine .sources hused hmodel (huses other ?_) hfound hne
      rw [List.flatMap_append, List.flatMap_cons, hinputs]
      rcases List.mem_append.mp hother with hother | hother
      · exact List.mem_append_left _ hother
      · simp [hother]
  · have hcollects := MeasureSet.foldlM_collects hset
    split at hnone
    next => cases hnone
    next hanchor =>
      cases hnone
      refine .noMeasures fun input hinput => ?_
      rw [Manifest.uses_iff hmetrics, hcollects.anchor_eq.mp hanchor] at hinput
      cases hinput

/-- An item is refused where it names nothing of the anchor to group by, where its link is no
entity of the anchor, or where no model behind the link has it. -/
theorem Grouping.addItem_eq_error {anchor : Model} {grouping : Grouping} {item : GroupItem}
    (h : addItem manifest anchor grouping item = .error failure) :
    (item.via = none ∧ manifest.resolveLocal anchor item ≠ .ok () ∧
        failure = .unresolvedElement .request
          ("group-by items of semantic model '" ++ anchor.name ++ "'") item.name
          (manifest.suggestLocal? anchor item.name)) ∨
      ∃ entity, item.via = some entity ∧
        (anchor.entity? entity = none ∧
            failure = .unresolvedElement .request
              ("entities of semantic model '" ++ anchor.name ++ "'") entity
              (Text.nearest? entity (anchor.entities.map (·.name))) ∨
          (anchor.entity? entity).isSome = true ∧
            manifest.linkedModel? entity item.name anchor.name = none ∧
            failure = .unresolvedElement .request
              ("semantic models linked through entity '" ++ entity ++ "'")
              (qualified entity item.name)
              (Text.nearest? (qualified entity item.name)
                (manifest.linkedNames entity anchor.name))) := by
  unfold addItem at h
  split at h
  next hvia =>
    rcases bind_eq_error.mp h with hlocal | ⟨⟨⟩, -, ⟨⟩⟩
    refine .inl ⟨hvia, by simp [hlocal], ?_⟩
    unfold Manifest.resolveLocal at hlocal
    split at hlocal
    next => cases hlocal
    next => cases hlocal
    next =>
      cases hlocal
      rfl
  next entity hvia =>
    rcases bind_eq_error.mp h with hlinked | ⟨model, -, ⟨⟩⟩
    refine .inr ⟨entity, hvia, ?_⟩
    unfold Manifest.resolveLinked at hlinked
    split at hlinked
    next hnone =>
      cases hlinked
      exact .inl ⟨hnone, rfl⟩
    next found hfound =>
      split at hlinked
      next => cases hlinked
      next hnone =>
        cases hlinked
        exact .inr ⟨by simp [hfound], hnone, rfl⟩

theorem Manifest.resolveGroups_eq_error {anchor : Model}
    (hanchor : manifest.Anchors request anchor)
    (h : manifest.resolveGroups anchor request.groupBy = .error failure) :
    manifest.Refuses request failure := by
  obtain ⟨done, item, rest, grouping, hitems, -, hitem⟩ :=
    foldlM_eq_error (P := fun _ _ => True) (fun _ _ => trivial) trivial h
  have hmem : item ∈ request.groupBy := by simp [hitems]
  rcases Grouping.addItem_eq_error hitem with
    ⟨hvia, hlocal, rfl⟩ | ⟨entity, hvia, ⟨hnone, rfl⟩ | ⟨-, hnone, rfl⟩⟩
  · refine .item hanchor hmem ?_
    rwa [Manifest.resolves_iff_of_local hvia, ← Manifest.resolveLocal_eq_ok]
  · refine .item hanchor hmem ?_
    rw [Manifest.resolves_iff_of_linked hvia]
    simp [hnone]
  · refine .item hanchor hmem ?_
    rw [Manifest.resolves_iff_of_linked hvia]
    simp [hnone]

theorem LinkedRead.addWindows_eq_error {anchor : Model} {reads : List LinkedRead}
    (h : addWindows anchor reads = .error failure) :
    ∃ read ∈ reads, read.model.window ≠ none ∧ anchor.timeDimension? = none ∧
      failure = .missingWindowTime anchor.name read.model.name := by
  induction reads with
  | nil => cases h
  | cons read rest ih =>
      simp only [addWindows, bind_eq_error] at h
      rcases h with hread | ⟨⟨after, own⟩, -, hrest | ⟨others, -, ⟨⟩⟩⟩
      · refine ⟨read, List.mem_cons_self, ?_⟩
        unfold addWindow at hread
        split at hread
        next => cases hread
        next window hwindow =>
          split at hread
          next hnone =>
            cases hread
            exact ⟨by simp [hwindow], hnone, rfl⟩
          next => cases hread
      · obtain ⟨found, hfound, hcause⟩ := ih hrest
        exact ⟨found, List.mem_cons_of_mem _ hfound, hcause⟩

theorem Manifest.resolve_eq_error (hmodels : (manifest.models.map (·.name)).Nodup)
    (h : manifest.resolve request = .error failure) : manifest.Refuses request failure := by
  unfold Manifest.resolve at h
  cases hempty : request.metrics with
  | nil =>
      rw [hempty] at h
      cases h
      exact .noMetrics hempty
  | cons first rest =>
      simp only [hempty, List.isEmpty_cons, Bool.false_eq_true, if_false, bind_eq_error] at h
      rw [← hempty] at h
      rcases h with hmetrics | ⟨metrics, hmetrics, h⟩
      · obtain ⟨name, hname, hnone⟩ := mapM_eq_error hmetrics
        unfold Manifest.resolveMetric at hnone
        split at hnone
        next => cases hnone
        next hmetric =>
          cases hnone
          exact .metric hname hmetric
      · simp only [mapM_eq_ok, Manifest.resolveMetric_eq_ok] at hmetrics
        rcases h with hmeasures | ⟨⟨anchor, measures⟩, hmeasures, h⟩
        · exact Manifest.resolveMeasures_eq_error hmetrics hmeasures
        · have hanchor :=
            (Manifest.resolveMeasures_measured hmodels hmeasures).anchors hmetrics
          rcases h with hgroups | ⟨grouping, hgroups, hwindows | ⟨_, -, hkeys | ⟨_, -, ⟨⟩⟩⟩⟩
          · exact Manifest.resolveGroups_eq_error hanchor hgroups
          · obtain ⟨read, hread, hwindow, htime, rfl⟩ :=
              LinkedRead.addWindows_eq_error hwindows
            obtain ⟨item, hitem, hvia, hmodel⟩ :=
              ((Manifest.resolveGroups_sorts hgroups).collects read hread).found
            exact .time hanchor hitem hvia hmodel hwindow htime
          · obtain ⟨⟨name, rfl⟩, hnot⟩ := GroupKeys.ofNames_eq_error hkeys
            exact .keys hnot

end Resolve

end MetricSql
