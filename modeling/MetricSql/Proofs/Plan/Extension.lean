import MetricSql.Compile
import MetricSql.Proofs.Plan.Resolved

/-!
# Growing the manifest

Every lookup of the resolver takes the first declaration that fits.  So a request that has a plan keeps it when
models and metrics are appended to the manifest, also where they repeat a name that is taken already.
-/

namespace MetricSql

/-- The manifest with more declarations after its own. -/
def Manifest.extend (manifest : Manifest) (models : List Model) (metrics : List Metric) :
    Manifest where
  models := manifest.models ++ models
  metrics := manifest.metrics ++ metrics

theorem find?_append_of_eq_some
    {α : Type} {p : α → Bool} {xs : List α} {x : α}
    (h : xs.find? p = some x) (ys : List α) :
    (xs ++ ys).find? p = some x := by
  rw [List.find?_append, h, Option.some_or]

/-- A fold succeeds with the same result if each of its steps does. -/
theorem foldlM_ok_of_step
    {ε α σ : Type} {f g : σ → α → Except ε σ}
    (hstep : ∀ {s x s'}, f s x = .ok s' → g s x = .ok s')
    {xs : List α} {s s' : σ} (h : xs.foldlM f s = .ok s') :
    xs.foldlM g s = .ok s' := by
  induction xs generalizing s with
  | nil => exact h
  | cons x rest ih =>
      rw [List.foldlM_cons, bind_eq_ok] at h ⊢
      obtain ⟨middle, hx, hrest⟩ := h
      exact ⟨middle, hstep hx, ih hrest⟩

section

variable {manifest : Manifest} (models : List Model) (metrics : List Metric)

theorem MeasureSet.addInput_extend
    {metric : Metric} {set set' : MeasureSet} {input : String}
    (h : set.addInput manifest metric input = .ok set') :
    set.addInput (manifest.extend models metrics) metric input = .ok set' := by
  unfold MeasureSet.addInput at h ⊢
  by_cases hterm : set.terms.any (·.name == input)
  · rwa [if_pos hterm] at h ⊢
  · rw [if_neg hterm] at h ⊢
    cases hmodel : manifest.modelOfMeasure? input with
    | none =>
        rw [hmodel] at h
        cases h
    | some model =>
        have hextended :
            (manifest.extend models metrics).modelOfMeasure? input = some model :=
          find?_append_of_eq_some hmodel models
        rw [hmodel] at h
        rw [hextended]
        exact h

theorem Manifest.resolveMeasures_extend
    {asked : List Metric} {answer : Model × List MeasureTerm}
    (h : manifest.resolveMeasures asked = .ok answer) :
    (manifest.extend models metrics).resolveMeasures asked = .ok answer := by
  unfold Manifest.resolveMeasures at h ⊢
  rw [bind_eq_ok] at h ⊢
  obtain ⟨set, hset, hanswer⟩ := h
  refine ⟨set, ?_, hanswer⟩
  apply foldlM_ok_of_step ?_ hset
  intro before metric after hmetric
  unfold MeasureSet.addMetric at hmetric ⊢
  exact foldlM_ok_of_step (MeasureSet.addInput_extend models metrics) hmetric

theorem Manifest.resolveLocal_extend
    {anchor : Model} {item : GroupItem}
    (h : manifest.resolveLocal anchor item = .ok ()) :
    (manifest.extend models metrics).resolveLocal anchor item = .ok () := by
  -- the manifest is consulted for a suggestion only, in the refusal
  unfold Manifest.resolveLocal at h ⊢
  cases helement : anchor.element? item.name with
  | none => simp [helement] at h
  | some element =>
      cases element with
      | entity _ => rfl
      | dimension _ => rfl
      | measure _ => simp [helement] at h

theorem Manifest.resolveLinked_extend
    {anchor model : Model} {entity : String} {item : GroupItem}
    (h : manifest.resolveLinked anchor entity item = .ok model) :
    (manifest.extend models metrics).resolveLinked anchor entity item = .ok model := by
  unfold Manifest.resolveLinked at h ⊢
  cases hentity : anchor.entity? entity with
  | none => simp [hentity] at h
  | some _ =>
      cases hmodel : manifest.linkedModel? entity item.name anchor.name with
      | none => simp [hentity, hmodel] at h
      | some found =>
          have hextended :
              (manifest.extend models metrics).linkedModel? entity item.name anchor.name =
                some found :=
            find?_append_of_eq_some hmodel models
          simp only [hentity, hmodel] at h
          simp only [hextended]
          exact h

theorem Manifest.resolveGroups_extend
    {anchor : Model} {items : List GroupItem} {grouping : Grouping}
    (h : manifest.resolveGroups anchor items = .ok grouping) :
    (manifest.extend models metrics).resolveGroups anchor items = .ok grouping := by
  unfold Manifest.resolveGroups at h ⊢
  apply foldlM_ok_of_step ?_ h
  intro before item after hitem
  unfold Grouping.addItem at hitem ⊢
  cases hvia : item.via with
  | none =>
      simp only [hvia, bind_eq_ok] at hitem ⊢
      obtain ⟨⟨⟩, hlocal, hafter⟩ := hitem
      exact ⟨(), resolveLocal_extend models metrics hlocal, hafter⟩
  | some entity =>
      simp only [hvia, bind_eq_ok] at hitem ⊢
      obtain ⟨model, hlinked, hafter⟩ := hitem
      exact ⟨model, resolveLinked_extend models metrics hlinked, hafter⟩

theorem Manifest.resolve_extend
    {request : Request} {resolved : Resolved}
    (h : manifest.resolve request = .ok resolved) :
    (manifest.extend models metrics).resolve request = .ok resolved := by
  unfold Manifest.resolve at h ⊢
  by_cases hempty : request.metrics.isEmpty
  · rw [if_pos hempty] at h
    cases h
  · rw [if_neg hempty] at h ⊢
    simp only [bind_eq_ok, mapM_eq_ok, Manifest.resolveMetric_eq_ok] at h ⊢
    obtain ⟨asked, hasked, ⟨anchor, measures⟩, hmeasures, grouping, hgrouping, hrest⟩ := h
    refine ⟨asked, ?_, (anchor, measures), resolveMeasures_extend models metrics hmeasures,
      grouping, resolveGroups_extend models metrics hgrouping, hrest⟩
    exact hasked.imp fun name metric hmetric => find?_append_of_eq_some hmetric metrics

end

/-- A request that has a plan has the same plan, and so the same SQL under the same options, after any models
and metrics were appended to the manifest. -/
theorem Manifest.plan_extend
    {manifest : Manifest} {request : Request} {plan : Plan}
    (h : manifest.plan request = .ok plan) (models : List Model) (metrics : List Metric) :
    (manifest.extend models metrics).plan request = .ok plan ∧
      ∀ options, (manifest.extend models metrics).compile request options =
        manifest.compile request options := by
  have hplan : (manifest.extend models metrics).plan request = .ok plan := by
    unfold Manifest.plan at h ⊢
    rw [bind_eq_ok] at h ⊢
    obtain ⟨resolved, hresolved, hstages⟩ := h
    exact ⟨resolved, Manifest.resolve_extend models metrics hresolved, hstages⟩
  refine ⟨hplan, fun options => ?_⟩
  unfold Manifest.compile
  rw [hplan, h]

namespace Sample

/-- The manifest with a second model of bookings and a second metric, under names that are taken. -/
def reissued : Manifest :=
  manifest.extend [{ bookings with table := { name := "bookings_v2" } }]
    [{ name := "half", formula := .literal 0.5 }]

theorem reissued_plan :
    ∃ plan, manifest.plan request = .ok plan ∧ reissued.plan request = .ok plan ∧
      ∀ options, reissued.compile request options = manifest.compile request options := by
  have hbuilt : (manifest.plan request).isOk = true := by decide +kernel
  cases hplan : manifest.plan request with
  | error failure =>
      rw [hplan] at hbuilt
      cases hbuilt
  | ok plan =>
      refine ⟨plan, rfl, ?_⟩
      exact Manifest.plan_extend hplan _ _

end Sample

end MetricSql
