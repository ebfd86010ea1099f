import MetricSql.Proofs.Plan.Alike
import MetricSql.Proofs.Plan.Buildable

/-!
# Requests in another order

The order of the metrics and of the group items of a request decides in which order models are read and joined,
and which of two equal names is seen first.  It does not decide whether the request is built, and the columns of
the plan are the same up to order.
-/

namespace MetricSql

/-- The other request asks for the same in another order. -/
structure Request.Permutes (request other : Request) : Prop where
  metrics : request.metrics.Perm other.metrics
  groupBy : request.groupBy.Perm other.groupBy

theorem Request.Permutes.symm {request other : Request} (h : request.Permutes other) :
    other.Permutes request :=
  ⟨h.metrics.symm, h.groupBy.symm⟩

/-! ## Resolving in another order -/

namespace Manifest

variable {manifest : Manifest} {request other : Request}

theorem Uses.permuted
    {input : String} (h : manifest.Uses request input) (hperm : request.Permutes other) :
    manifest.Uses other input := by
  obtain ⟨name, hname, hmetric⟩ := h
  exact ⟨name, hperm.metrics.mem_iff.mp hname, hmetric⟩

theorem Anchors.permuted
    {anchor : Model} (h : manifest.Anchors request anchor) (hperm : request.Permutes other) :
    manifest.Anchors other anchor := by
  refine ⟨?_, ?_, ?_⟩
  · intro name hname
    exact h.known name (hperm.metrics.mem_iff.mpr hname)
  · intro input huses
    exact h.found input (huses.permuted hperm.symm)
  · obtain ⟨input, huses⟩ := h.used
    exact ⟨input, huses.permuted hperm⟩

/-- Whatever order a resolved request is put in, it is resolved. -/
theorem exists_resolve_of_permutes
    {resolved : Resolved} (hmodels : (manifest.models.map (·.name)).Nodup)
    (hperm : request.Permutes other) (h : manifest.resolve request = .ok resolved) :
    ∃ found, manifest.resolve other = .ok found := by
  have hsorted := resolve_sorted h
  obtain ⟨-, hmetrics, hmeasures, hkeys, -⟩ := resolve_eq_ok h
  have hanchors := (resolveMeasures_measured hmodels hmeasures).anchors hmetrics
  cases hother : manifest.resolve other with
  | ok found => exact ⟨found, rfl⟩
  | error failure =>
      refine absurd (resolve_eq_error hmodels hother)
        ((hanchors.permuted hperm).not_refuses ?_ ?_ ?_)
      · intro item hitem
        exact hsorted.resolves item (hperm.groupBy.mem_iff.mpr hitem)
      · intro item hitem entity model hvia hmodel hwindow
        obtain ⟨read, hread, -, -, hfound, -⟩ :=
          hsorted.exists_read hmodels (hperm.groupBy.mem_iff.mpr hitem) hvia
        cases hfound.symm.trans hmodel
        obtain ⟨window, hsome⟩ := Option.ne_none_iff_exists'.mp hwindow
        rw [← read.widens_widened.model_eq] at hsome
        obtain ⟨dimension, hdimension, -⟩ := (hsorted.bounded _ hread window hsome).time_eq
        simp [hdimension]
      · rw [← (hperm.groupBy.map _).nodup_iff, ← hkeys]
        exact resolved.keys.distinct

/-! ## Measures -/

section Measured

variable {metrics others : List Metric} {anchor : Model} {terms termOthers : List MeasureTerm}

theorem Measured.nodup (h : manifest.Measured metrics anchor terms) : terms.Nodup := by
  apply List.Nodup.of_map (·.name)
  rw [h.names_eq]
  exact nodup_eraseDups _

theorem Measured.mem_of_perm
    (h : manifest.Measured metrics anchor terms)
    (hother : manifest.Measured others anchor termOthers) (hperm : metrics.Perm others)
    {term : MeasureTerm} (hterm : term ∈ terms) : term ∈ termOthers := by
  have hname : term.name ∈ termOthers.map (·.name) := by
    rw [hother.names_eq, List.mem_eraseDups, ← (hperm.flatMap_right _).mem_iff,
      ← List.mem_eraseDups, ← h.names_eq]
    exact List.mem_map_of_mem hterm
  obtain ⟨found, hfound, hsame⟩ := List.mem_map.mp hname
  -- Both are aggregated as the anchor says.
  obtain ⟨-, measure, hmeasure, haggregation⟩ := h.found term hterm
  obtain ⟨-, second, hsecond, hfoundAggregation⟩ := hother.found found hfound
  rw [hsame] at hsecond
  cases hmeasure.symm.trans hsecond
  have heq : found = term := by
    cases found
    cases term
    simp_all
  exact heq ▸ hfound

theorem Measured.perm
    (h : manifest.Measured metrics anchor terms)
    (hother : manifest.Measured others anchor termOthers) (hperm : metrics.Perm others) :
    terms.Perm termOthers :=
  (List.perm_ext_iff_of_nodup h.nodup hother.nodup).mpr fun _ =>
    ⟨h.mem_of_perm hother hperm, hother.mem_of_perm h hperm.symm⟩

end Measured

theorem filterMap_metric?
    {names : List String} {metrics : List Metric}
    (h : List.Forall₂ (fun name metric => manifest.metric? name = some metric) names metrics) :
    names.filterMap manifest.metric? = metrics := by
  induction h with
  | nil => rfl
  | cons hfirst _ ih => rw [List.filterMap_cons_some hfirst, ih]

end Manifest

/-! ## Linked models -/

theorem eraseDups_perm {α : Type} [BEq α] [LawfulBEq α] {xs ys : List α} (h : xs.Perm ys) :
    xs.eraseDups.Perm ys.eraseDups := by
  classical
  refine (List.perm_ext_iff_of_nodup (nodup_eraseDups xs) (nodup_eraseDups ys)).mpr fun x => ?_
  rw [List.mem_eraseDups, List.mem_eraseDups, h.mem_iff]

namespace LinkedRead

variable {manifest : Manifest} {anchor : Model} {read other : LinkedRead}

/-- Bounds are added to alike reads alike. -/
theorem Alike.widened (h : read.Alike other) : read.widened.Alike other.widened := by
  have hwidens := read.widens_widened
  have hwidensOther := other.widens_widened
  refine ⟨?_, ?_, ?_⟩
  · rw [hwidens.entity_eq, hwidensOther.entity_eq, h.entity_eq]
  · rw [hwidens.model_eq, hwidensOther.model_eq, h.model_eq]
  · have hbounds : ∀ bound : String, (⟨bound, none⟩ : ElementRef) ∈ read.elements ↔
        ⟨bound, none⟩ ∈ other.elements := fun _ => h.elements.mem_iff
    rw [elements_widened_eq, elements_widened_eq, h.model_eq]
    simp only [hbounds]
    exact h.elements.append_right _

/-- Two reads for the items in different orders read the same if they have the same link. -/
theorem Collects.alike
    {items itemOthers : List GroupItem} (hmodels : (manifest.models.map (·.name)).Nodup)
    (h : read.Collects manifest anchor items)
    (hother : other.Collects manifest anchor itemOthers) (hperm : items.Perm itemOthers)
    (hlink : read.link = other.link) : read.Alike other := by
  have hentity : read.entity = other.entity := congrArg Prod.fst hlink
  refine ⟨hentity, ?_, ?_⟩
  · exact List.inj_on_of_nodup_map hmodels h.model_mem hother.model_mem
      (congrArg Prod.snd hlink)
  · rw [h.elements_eq, hother.elements_eq, hentity, hlink]
    exact ((hperm.filter _).map _).cons _

theorem exists_window_of_time
    {reads afters : List LinkedRead} {time : String}
    (h : addWindows anchor reads = .ok (afters, some time)) :
    ∃ read ∈ reads, read.model.window ≠ none := by
  induction reads generalizing afters time with
  | nil => cases h
  | cons read rest ih =>
      simp only [addWindows, bind_eq_ok] at h
      obtain ⟨⟨after, own⟩, hread, ⟨others, otherTime⟩, hrest, heq⟩ := h
      cases hwindow : read.model.window with
      | some window => exact ⟨read, List.mem_cons_self, by simp [hwindow]⟩
      | none =>
          -- The time comes from another read then.
          simp only [addWindow, hwindow] at hread
          cases hread
          rw [Option.or_none] at heq
          cases heq
          obtain ⟨found, hfound, hsome⟩ := ih hrest
          exact ⟨found, List.mem_cons_of_mem _ hfound, hsome⟩

end LinkedRead

theorem Resolved.Sorted.linked_matched
    {manifest : Manifest} {request other : Request} {resolved found : Resolved}
    (hmodels : (manifest.models.map (·.name)).Nodup) (hperm : request.Permutes other)
    (hanchor : resolved.anchor = found.anchor) (h : resolved.Sorted manifest request)
    (hother : found.Sorted manifest other) :
    Matched LinkedRead.Alike resolved.linked found.linked := by
  refine matched_of_map_perm (f := LinkedRead.link) (g := LinkedRead.link) ?_ ?_
  · rw [h.linked_eq, hother.linked_eq, hanchor]
    exact eraseDups_perm (hperm.groupBy.filterMap _)
  · intro read hread second hsecond hlink
    obtain ⟨before, hcollects, rfl⟩ := h.collects read hread
    obtain ⟨beforeOther, hcollectsOther, rfl⟩ := hother.collects second hsecond
    rw [before.widened_link, beforeOther.widened_link] at hlink
    rw [hanchor] at hcollects
    exact (hcollects.alike hmodels hcollectsOther hperm.groupBy hlink).widened

/-! ## Elements of the anchor -/

/-- Exactly the names are added that no column has. -/
theorem foldl_addElement_eq_append (names : List String) (elements : List ElementRef) :
    ∃ added : List String,
      names.foldl addElement elements = elements ++ added.map (fun name => ⟨name, none⟩) ∧
        added.Nodup ∧
        ∀ name, name ∈ added ↔ name ∈ names ∧ name ∉ elements.map ElementRef.columnName := by
  obtain ⟨added, heq, hnodup, hadded⟩ := foldl_addElement_eq names elements
  refine ⟨added, heq, hnodup, fun name => ⟨hadded name, ?_⟩⟩
  rintro ⟨hname, hnew⟩
  obtain ⟨ref, href, rfl⟩ := exists_mem_foldl_addElement elements hname
  rw [heq, List.mem_append] at href
  rcases href with href | href
  · exact absurd (List.mem_map_of_mem href) hnew
  · obtain ⟨name, hmem, rfl⟩ := List.mem_map.mp href
    exact hmem

theorem foldl_addElement_perm
    {names nameOthers : List String} {elements others : List ElementRef}
    (hnames : ∀ name, name ∈ names ↔ name ∈ nameOthers) (helements : elements.Perm others) :
    (names.foldl addElement elements).Perm (nameOthers.foldl addElement others) := by
  obtain ⟨added, heq, hnodup, hmem⟩ := foldl_addElement_eq_append names elements
  obtain ⟨addedOther, heqOther, hnodupOther, hmemOther⟩ :=
    foldl_addElement_eq_append nameOthers others
  have hperm : added.Perm addedOther := by
    refine (List.perm_ext_iff_of_nodup hnodup hnodupOther).mpr fun name => ?_
    rw [hmem, hmemOther, hnames, (helements.map _).mem_iff]
  rw [heq, heqOther]
  exact helements.append (hperm.map _)

/-! ## Resolved requests -/

/-- Requests that are resolved to the same models, and to the same elements of them up to order. -/
structure Resolved.Alike (resolved other : Resolved) : Prop where
  metrics : resolved.metrics.Perm other.metrics
  anchor_eq : resolved.anchor = other.anchor
  measures : resolved.measures.Perm other.measures
  elements : resolved.elements.Perm other.elements
  linked : Matched LinkedRead.Alike resolved.linked other.linked
  time_eq : resolved.time = other.time
  keys : resolved.keys.names.Perm other.keys.names

/-- There is a time exactly if a linked model has a window. -/
theorem Manifest.resolve_time
    {manifest : Manifest} {request : Request} {resolved : Resolved}
    (h : manifest.resolve request = .ok resolved) (name : String) :
    resolved.time = some name ↔
      (∃ read ∈ resolved.linked, read.model.window ≠ none) ∧
        resolved.anchor.timeDimension?.map (·.name) = some name := by
  have hsorted := Manifest.resolve_sorted h
  obtain ⟨-, -, -, -, grouping, -, hwindows, -⟩ := Manifest.resolve_eq_ok h
  constructor
  · intro htime
    rw [htime] at hwindows
    obtain ⟨dimension, hdimension, rfl⟩ := LinkedRead.addWindows_time hwindows
    obtain ⟨read, hread, hwindow⟩ := LinkedRead.exists_window_of_time hwindows
    refine ⟨⟨read.widened, ?_, ?_⟩, by simp [hdimension]⟩
    · rw [LinkedRead.addWindows_eq_map hwindows]
      exact List.mem_map_of_mem hread
    · rw [read.widens_widened.model_eq]
      exact hwindow
  · rintro ⟨⟨read, hread, hwindow⟩, hname⟩
    obtain ⟨window, hsome⟩ := Option.ne_none_iff_exists'.mp hwindow
    obtain ⟨dimension, hdimension, htime⟩ := (hsorted.bounded read hread window hsome).time_eq
    simpa [hdimension, htime] using hname

theorem Manifest.resolve_alike
    {manifest : Manifest} {request other : Request} {resolved found : Resolved}
    (hmodels : (manifest.models.map (·.name)).Nodup) (hperm : request.Permutes other)
    (h : manifest.resolve request = .ok resolved)
    (hother : manifest.resolve other = .ok found) : resolved.Alike found := by
  obtain ⟨-, hmetrics, hmeasures, hkeys, grouping, hgrouping, -, helements⟩ :=
    Manifest.resolve_eq_ok h
  obtain ⟨-, hmetricsOther, hmeasuresOther, hkeysOther, groupingOther, hgroupingOther, -,
    helementsOther⟩ := Manifest.resolve_eq_ok hother
  have hmetricsPerm : resolved.metrics.Perm found.metrics := by
    rw [← Manifest.filterMap_metric? hmetrics, ← Manifest.filterMap_metric? hmetricsOther]
    exact hperm.metrics.filterMap _
  have hmeasured := Manifest.resolveMeasures_measured hmodels hmeasures
  have hmeasuredOther := Manifest.resolveMeasures_measured hmodels hmeasuresOther
  have hanchor : resolved.anchor = found.anchor :=
    ((hmeasured.anchors hmetrics).permuted hperm).unique (hmeasuredOther.anchors hmetricsOther)
  rw [← hanchor] at hmeasuredOther
  have hmeasuresPerm := hmeasured.perm hmeasuredOther hmetricsPerm
  have hlinked := (Manifest.resolve_sorted h).linked_matched hmodels hperm hanchor
    (Manifest.resolve_sorted hother)
  have htime : resolved.time = found.time := by
    have hwindows : (∃ read ∈ resolved.linked, read.model.window ≠ none) ↔
        ∃ read ∈ found.linked, read.model.window ≠ none := by
      constructor
      · rintro ⟨read, hread, hwindow⟩
        obtain ⟨second, hsecond, hpair⟩ := hlinked.exists_right hread
        exact ⟨second, hsecond, hpair.model_eq ▸ hwindow⟩
      · rintro ⟨second, hsecond, hwindow⟩
        obtain ⟨read, hread, hpair⟩ := hlinked.exists_left hsecond
        exact ⟨read, hread, hpair.model_eq ▸ hwindow⟩
    refine Option.ext fun name => ?_
    rw [Manifest.resolve_time h, Manifest.resolve_time hother, hwindows, hanchor]
  refine ⟨hmetricsPerm, hanchor, hmeasuresPerm, ?_, hlinked, htime, ?_⟩
  · have hsorts := Manifest.resolveGroups_sorts hgrouping
    have hsortsOther := Manifest.resolveGroups_sorts hgroupingOther
    rw [← List.foldl_append] at helements helementsOther
    rw [helements, helementsOther]
    refine (foldl_addElement_perm ?_ ?_).append (hmeasuresPerm.map _)
    · intro name
      rw [List.mem_append, List.mem_append, htime, hsorts.links_eq, hsortsOther.links_eq,
        List.mem_eraseDups, List.mem_eraseDups, (hperm.groupBy.filterMap _).mem_iff]
    · rw [hsorts.elements_eq, hsortsOther.elements_eq]
      exact (hperm.groupBy.filter _).map _
  · rw [hkeys, hkeysOther]
    exact hperm.groupBy.map _

/-! ## Planning in another order -/

/-- Each stage is built from an alike one below it. -/
theorem Resolved.Alike.exists_plan
    {manifest : Manifest} {request : Request} {resolved other : Resolved} {plan : Plan}
    (halike : resolved.Alike other) (hsorted : resolved.Sorted manifest request)
    (h : resolved.plan = .ok plan) : ∃ found, other.plan = .ok found ∧ plan.Alike found := by
  obtain ⟨primary, targets, joined, aggregated, s₁, s₂, s₃, s₄, s₅, hread, hreads, hjoin,
    haggregate, hmetrics⟩ := Resolved.plan_eq_ok h
  obtain ⟨primaryOther, t₁, hreadOther, hprimary⟩ :=
    Model.read_alike halike.elements hread {}
  obtain ⟨targetOthers, t₂, hreadsOther, htargets⟩ :=
    LinkedRead.readAll_matched halike.linked hreads t₁
  obtain ⟨joinedOther, t₃, hjoinOther, hjoined⟩ :=
    Plan.joinTargets_alike hprimary halike.linked (LinkedRead.readAll_eq_ok hreads).1
      (LinkedRead.readAll_eq_ok hreadsOther).1 htargets (hsorted.reads_matches hread) hjoin t₂
  obtain ⟨aggregatedOther, t₄, haggregateOther, hgrouped, haggregated⟩ :=
    Plan.aggregateBy_alike hjoined halike.keys halike.measures haggregate t₃
  have hkeys : aggregated.groupKeys? = some resolved.keys := by
    obtain ⟨columns, -, rfl, -⟩ := Plan.aggregateBy_eq_ok haggregate
    rfl
  obtain ⟨found, t₅, hmetricsOther, hfound⟩ :=
    Plan.computeMetrics_alike haggregated hkeys hgrouped halike.keys
      (halike.metrics.map _) hmetrics t₄
  refine ⟨found, ?_, hfound⟩
  rw [halike.anchor_eq] at hreadOther
  rw [halike.time_eq] at hreadsOther
  unfold Resolved.plan
  rw [hreadOther]
  refine bind_eq_ok.mpr ⟨(targetOthers, t₂), hreadsOther, ?_⟩
  simp only [hjoinOther, haggregateOther, hmetricsOther]

theorem Manifest.exists_plan_of_permutes
    {manifest : Manifest} {request other : Request} {plan : Plan}
    (hmodels : (manifest.models.map (·.name)).Nodup) (hperm : request.Permutes other)
    (h : manifest.plan request = .ok plan) :
    ∃ found, manifest.plan other = .ok found ∧ plan.Alike found := by
  unfold Manifest.plan at h ⊢
  obtain ⟨resolved, hresolved, hplan⟩ := bind_eq_ok.mp h
  obtain ⟨second, hsecond⟩ := exists_resolve_of_permutes hmodels hperm hresolved
  have halike := resolve_alike hmodels hperm hresolved hsecond
  obtain ⟨found, hfound, hcolumns⟩ := halike.exists_plan (resolve_sorted hresolved) hplan
  exact ⟨found, bind_eq_ok.mpr ⟨second, hsecond, hfound⟩, hcolumns⟩

/-- A request is built in all orders of its metrics and of its group items or in none, and its plans have the
same columns up to order: the same names, roles and types. -/
theorem Manifest.plan_permutes
    {manifest : Manifest} {request other : Request}
    (hmodels : (manifest.models.map (·.name)).Nodup) (hperm : request.Permutes other) :
    ((∃ plan, manifest.plan request = .ok plan) ↔
        ∃ plan, manifest.plan other = .ok plan) ∧
      ∀ plan found, manifest.plan request = .ok plan → manifest.plan other = .ok found →
        plan.signatures.Perm found.signatures := by
  refine ⟨⟨?_, ?_⟩, ?_⟩
  · rintro ⟨plan, hplan⟩
    obtain ⟨found, hfound, -⟩ := exists_plan_of_permutes hmodels hperm hplan
    exact ⟨found, hfound⟩
  · rintro ⟨found, hfound⟩
    obtain ⟨plan, hplan, -⟩ := exists_plan_of_permutes hmodels hperm.symm hfound
    exact ⟨plan, hplan⟩
  · intro plan found hplan hfound
    obtain ⟨second, hsecond, halike⟩ := exists_plan_of_permutes hmodels hperm hplan
    cases hfound.symm.trans hsecond
    exact halike.signatures

namespace Sample

/-- Half the amount and twice the amount. -/
def ratios : Manifest :=
  { histories with metrics := histories.metrics ++
      [{ name := "twice", formula := .binary .mul (.input "amount") (.literal 2.0) }] }

def byMonthFirst : Request where
  metrics := ["half", "twice"]
  groupBy := [byMonth, byCountry]

def byCountryFirst : Request where
  metrics := ["twice", "half"]
  groupBy := [byCountry, byMonth]

/-- The linked model comes first or last. -/
theorem country_first_or_last :
    (ratios.models.map (·.name)).Nodup ∧ byMonthFirst.Permutes byCountryFirst ∧
      ∃ plan found, ratios.plan byMonthFirst = .ok plan ∧
        ratios.plan byCountryFirst = .ok found ∧ plan.signatures.Perm found.signatures := by
  have hmodels : (ratios.models.map (·.name)).Nodup := by decide
  have hperm : byMonthFirst.Permutes byCountryFirst := ⟨.swap _ _ _, .swap _ _ _⟩
  obtain ⟨hiff, hcolumns⟩ := Manifest.plan_permutes hmodels hperm
  have hbuilt : (ratios.plan byMonthFirst).isOk = true := by decide +kernel
  cases hplan : ratios.plan byMonthFirst with
  | error failure =>
      rw [hplan] at hbuilt
      cases hbuilt
  | ok plan =>
      obtain ⟨found, hfound⟩ := hiff.mp ⟨plan, hplan⟩
      exact ⟨hmodels, hperm, plan, found, rfl, hfound, hcolumns plan found hplan hfound⟩

end Sample

end MetricSql
