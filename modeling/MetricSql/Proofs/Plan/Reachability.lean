import MetricSql.Proofs.Plan.Suggestion

/-!
# Reachability

Through an entity a request reaches the dimensions of the models whose rows the
entity identifies.  A manifest is asked about this in three ways: for the model of
one dimension, for the names of all dimensions, from which suggestions are made, and
for the entities that lead nowhere since no other model has them.  `Reaches` says
what can be reached without any of the three, and each of them agrees with it.
-/

namespace MetricSql

theorem qualified_right_inj {a b c : String} : qualified a b = qualified a c ↔ b = c := by
  refine ⟨fun h => ?_, congrArg (qualified a)⟩
  have hlist := congrArg String.toList h
  simp only [qualified, String.toList_append, List.append_cancel_left_eq] at hlist
  exact String.toList_injective hlist

theorem EntityKind.identifiesRows_iff {kind : EntityKind} :
    kind.identifiesRows = true ↔ kind = .primary ∨ kind = .unique ∨ kind = .natural := by
  cases kind <;> decide

theorem Model.isIdentifiedBy_iff {model : Model} {entity : String} :
    model.isIdentifiedBy entity = true ↔ ∃ found, model.entity? entity = some found ∧
      (found.kind = .primary ∨ found.kind = .unique ∨ found.kind = .natural) := by
  simp only [isIdentifiedBy, Option.any_eq_true, EntityKind.identifiesRows_iff]

theorem Model.isSome_dimension?_iff {model : Model} {name : String} :
    (model.dimension? name).isSome ↔ ∃ dimension ∈ model.dimensions, dimension.name = name := by
  simp [dimension?, List.find?_isSome]

namespace Manifest

/-- The dimension is one of a model that rows of a model called `exclude` can be joined to through
the entity, each with one row at most.  Of entities of one name in a model, the first counts. -/
structure Reaches (manifest : Manifest) (entity dimension exclude : String) (model : Model) :
    Prop where
  model_mem : model ∈ manifest.models
  name_ne : model.name ≠ exclude
  identified : ∃ found, model.entity? entity = some found ∧
    (found.kind = .primary ∨ found.kind = .unique ∨ found.kind = .natural)
  dimension_mem : ∃ found ∈ model.dimensions, found.name = dimension

variable {manifest : Manifest} {entity dimension exclude : String} {model : Model}

/-! ## The model of a dimension -/

theorem reaches_iff : manifest.Reaches entity dimension exclude model ↔
    model ∈ manifest.models ∧
      (model.name != exclude && model.isIdentifiedBy entity &&
        (model.dimension? dimension).isSome) = true := by
  rw [Bool.and_eq_true, Bool.and_eq_true, bne_iff_ne, Model.isIdentifiedBy_iff,
    Model.isSome_dimension?_iff]
  constructor
  · rintro ⟨hmem, hne, hidentified, hdimension⟩
    exact ⟨hmem, ⟨hne, hidentified⟩, hdimension⟩
  · rintro ⟨hmem, ⟨hne, hidentified⟩, hdimension⟩
    exact ⟨hmem, hne, hidentified, hdimension⟩

theorem reaches_of_linkedModel?
    (h : manifest.linkedModel? entity dimension exclude = some model) :
    manifest.Reaches entity dimension exclude model := by
  have hasked := List.find?_some h
  exact reaches_iff.mpr ⟨linkedModel?_mem h, hasked⟩

theorem isSome_linkedModel?_iff :
    (manifest.linkedModel? entity dimension exclude).isSome ↔
      ∃ model, manifest.Reaches entity dimension exclude model := by
  simp only [linkedModel?, List.find?_isSome, reaches_iff]

/-! ## The names of all dimensions -/

theorem qualified_mem_linkedNames_iff :
    qualified entity dimension ∈ manifest.linkedNames entity exclude ↔
      (manifest.linkedModel? entity dimension exclude).isSome := by
  simp only [mem_linkedNames_iff, qualified_right_inj, exists_eq_left']

/-! ## Entities that lead nowhere -/

theorem entity?_eq_none_of_isolated (h : (exclude, entity) ∈ manifest.isolatedEntities)
    (hmodel : model ∈ manifest.models) (hne : model.name ≠ exclude) :
    model.entity? entity = none := by
  have hnone := (List.mem_filter.mp h).2
  simp only [Bool.not_eq_true', List.any_eq_false, Bool.and_eq_true, bne_iff_ne] at hnone
  simpa [hne] using hnone model hmodel

theorem not_reaches_of_isolated (h : (exclude, entity) ∈ manifest.isolatedEntities) :
    ¬ manifest.Reaches entity dimension exclude model := by
  rintro ⟨hmem, hne, ⟨found, hfound, -⟩, -⟩
  rw [entity?_eq_none_of_isolated h hmem hne] at hfound
  cases hfound

theorem linkedNames_eq_nil_of_isolated (h : (exclude, entity) ∈ manifest.isolatedEntities) :
    manifest.linkedNames entity exclude = [] := by
  refine List.eq_nil_iff_forall_not_mem.mpr fun name hname => ?_
  rcases mem_linkedNames_iff.mp hname with ⟨dimension, -, hfound⟩
  rcases isSome_linkedModel?_iff.mp hfound with ⟨model, hreaches⟩
  exact not_reaches_of_isolated h hreaches

/-! ## Requests -/

section Requests

variable {request : Request} {anchor : Model} {item : GroupItem} {failure : Failure}

/-- Once the anchor is known, an item that is not found is what the request fails with. -/
theorem AnchoredOn.plan_eq_error (h : manifest.AnchoredOn request anchor)
    (hgroups : manifest.resolveGroups anchor request.groupBy = .error failure) :
    manifest.plan request = .error failure := by
  rcases h with ⟨metrics, measures, hmetrics, hmeasures⟩
  -- Without metrics there are no measures, and so no anchor.
  have hsome : request.metrics.isEmpty = false := by
    rw [List.isEmpty_eq_false_iff]
    intro hnone
    rw [hnone] at hmetrics
    cases hmetrics
    cases hmeasures
  have hresolve : manifest.resolve request = .error failure := by
    simp only [resolve, hsome, Bool.false_eq_true, if_false, bind_eq_error]
    exact .inr ⟨metrics, hmetrics, .inr ⟨(anchor, measures), hmeasures, .inl hgroups⟩⟩
  exact bind_eq_error.mpr (.inl hresolve)

theorem exists_reaches_of_resolveGroups {grouping : Grouping}
    (h : manifest.resolveGroups anchor request.groupBy = .ok grouping)
    (hitem : item ∈ request.groupBy) (hvia : item.via = some entity) :
    ∃ model, manifest.Reaches entity item.name anchor.name model := by
  have hresolves := (resolveGroups_sorts h).resolves item hitem
  rcases (resolves_iff_of_linked hvia).mp hresolves with ⟨-, model, hmodel⟩
  exact ⟨model, reaches_of_linkedModel? hmodel⟩

theorem AnchoredOn.unresolved_of_isolated (hanchor : manifest.AnchoredOn request anchor)
    (h : (anchor.name, entity) ∈ manifest.isolatedEntities) (hitem : item ∈ request.groupBy)
    (hvia : item.via = some entity) :
    ∃ failure, manifest.plan request = .error failure ∧ failure.isUnresolved = true := by
  -- The items are looked up from the anchor, so models that share its name are left out as well.
  cases hgroups : manifest.resolveGroups anchor request.groupBy with
  | ok grouping =>
      rcases exists_reaches_of_resolveGroups hgroups hitem hvia with ⟨model, hreaches⟩
      exact absurd hreaches (not_reaches_of_isolated h)
  | error failure =>
      refine ⟨failure, hanchor.plan_eq_error hgroups, ?_⟩
      rcases resolveGroups_reports hanchor hgroups with ⟨_, _, _, -, -, rfl⟩
      rfl

end Requests

/-- The name of a dimension is listed if and only if a model is found for it, which is the case
whenever the entity reaches one, and the model that is found is reached.  Through an isolated entity
no name is listed, and a request for measures of its model with an item through the entity is
refused for a name that is not found, whether or not other models have the same name. -/
theorem reachability_agrees (manifest : Manifest) (entity dimension exclude : String) :
    (qualified entity dimension ∈ manifest.linkedNames entity exclude ↔
        ∃ model, manifest.linkedModel? entity dimension exclude = some model) ∧
      ((∃ model, manifest.linkedModel? entity dimension exclude = some model) ↔
        ∃ model, manifest.Reaches entity dimension exclude model) ∧
      (∀ model, manifest.linkedModel? entity dimension exclude = some model →
        manifest.Reaches entity dimension exclude model) ∧
      ((exclude, entity) ∈ manifest.isolatedEntities →
        manifest.linkedNames entity exclude = [] ∧
          ∀ request anchor item, manifest.AnchoredOn request anchor → anchor.name = exclude →
            item ∈ request.groupBy → item.via = some entity →
              ∃ failure, manifest.plan request = .error failure ∧
                failure.isUnresolved = true) := by
  simp only [← Option.isSome_iff_exists]
  refine ⟨qualified_mem_linkedNames_iff, isSome_linkedModel?_iff,
    fun model => reaches_of_linkedModel?, fun h => ⟨linkedNames_eq_nil_of_isolated h, ?_⟩⟩
  rintro request anchor item hanchor rfl hitem hvia
  exact hanchor.unresolved_of_isolated h hitem hvia

end Manifest

namespace Sample

/-- Bookings with a guest, of whom no other model knows. -/
def guestBookings : Model :=
  { bookings with
    entities := bookings.entities ++ [{ name := "guest", kind := .foreign, dataType := .int }] }

def guestManifest : Manifest := { manifest with models := [guestBookings, listings] }

def guestRequest : Request where
  metrics := ["half"]
  groupBy := [{ name := "country", via := some "guest" }]

theorem guests_unreachable :
    ("bookings", "guest") ∈ guestManifest.isolatedEntities ∧
      guestManifest.linkedNames "guest" "bookings" = [] ∧
      guestManifest.AnchoredOn guestRequest guestBookings ∧
      (∃ failure, guestManifest.plan guestRequest = .error failure ∧
        failure.isUnresolved = true) ∧
      "listing__country" ∈ guestManifest.linkedNames "listing" "bookings" ∧
      guestManifest.linkedModel? "listing" "country" "bookings" = some listings ∧
      guestManifest.Reaches "listing" "country" "bookings" listings := by
  have hisolated : ("bookings", "guest") ∈ guestManifest.isolatedEntities := by decide
  have hanchor : guestManifest.AnchoredOn guestRequest guestBookings := ⟨_, _, rfl, rfl⟩
  have hfound : guestManifest.linkedModel? "listing" "country" "bookings" = some listings := rfl
  have hguest := Manifest.reachability_agrees guestManifest "guest" "country" "bookings"
  have hlisting := Manifest.reachability_agrees guestManifest "listing" "country" "bookings"
  rcases hguest.2.2.2 hisolated with ⟨hnone, hrefused⟩
  exact ⟨hisolated, hnone, hanchor,
    hrefused guestRequest guestBookings _ hanchor rfl List.mem_cons_self rfl,
    hlisting.1.mpr ⟨listings, hfound⟩, hfound, hlisting.2.2.1 listings hfound⟩

end Sample

end MetricSql
