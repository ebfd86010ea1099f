import MetricSql.Proofs.Lexeme.Fallback
import MetricSql.Proofs.Plan.Answers

/-!
# Support is checked exactly

A plan is rendered if its profile is valid and the dialect can say every truncation and every percentile in the
columns of its stages, and else refused for the first one it cannot say.  Conditions and group keys need no check:
the former hold columns and comparisons, the latter are columns of their stage.  So no usual spelling ever stands in
for what a dialect lacks.
-/

namespace MetricSql

/-! ## The check -/

namespace Profile

/-- Whether the dialect can say the outermost construct of an expression. -/
def supports (profile : Profile) : Expr → Bool
  | .dateTrunc _ _ => profile.dialect.truncation?.isSome
  | .percentile _ _ discrete approximate =>
    (profile.dialect.percentile? discrete approximate).isSome
  | _ => true

variable {profile : Profile} {e : Expr}

theorem missingFeature?_eq_none_iff :
    profile.missingFeature? e = none ↔ profile.supports e = true := by
  cases e with
  | dateTrunc grain inner =>
      simp only [missingFeature?, supports]
      cases profile.dialect.truncation? <;> simp
  | percentile inner fraction discrete approximate =>
      simp only [missingFeature?, supports]
      cases profile.dialect.percentile? discrete approximate <;> simp
  | _ => simp [missingFeature?, supports]

theorem supports_iff_lacks :
    profile.supports e = true ↔
      e.lacks profile ≠ some .truncation ∧ e.lacks profile ≠ some .percentile := by
  cases e with
  | dateTrunc grain inner =>
      simp only [supports, Expr.lacks]
      cases profile.dialect.truncation? <;> simp
  | percentile inner fraction discrete approximate =>
      simp only [supports, Expr.lacks]
      cases profile.dialect.percentile? discrete approximate <;> simp
  | safeDivide numerator denominator =>
      simp only [supports, Expr.lacks]
      split <;> simp
  | _ => simp [supports, Expr.lacks]

theorem findSome?_missingFeature?_eq_none_iff {exprs : List Expr} :
    exprs.findSome? profile.missingFeature? = none ↔
      ∀ part ∈ exprs, profile.supports part = true := by
  simp only [List.findSome?_eq_none_iff, missingFeature?_eq_none_iff]

theorem check_eq_ok_iff :
    profile.check e = .ok () ↔ ∀ part ∈ e.parts, profile.supports part = true := by
  rw [← findSome?_missingFeature?_eq_none_iff, check]
  cases e.parts.findSome? profile.missingFeature? <;> simp

theorem check_eq_ok_iff_fallbacks :
    profile.check e = .ok () ↔
      Fallback.truncation ∉ (e.traced profile).fallbacks ∧
        Fallback.percentile ∉ (e.traced profile).fallbacks := by
  simp only [check_eq_ok_iff, supports_iff_lacks, Expr.mem_fallbacks_traced,
    List.mem_filterMap, not_exists, not_and, forall_and]

/-- Expressions are checked one after the other, each with its parts in order. -/
theorem forM_check (exprs : List Expr) :
    exprs.forM profile.check =
      match (exprs.flatMap Expr.parts).findSome? profile.missingFeature? with
      | some feature => .error (.unsupportedFeature profile.dialect feature)
      | none => .ok () := by
  induction exprs with
  | nil => rfl
  | cons e rest ih =>
      have hcons : (e :: rest).forM profile.check =
          (profile.check e >>= fun _ => rest.forM profile.check) := rfl
      rw [hcons, ih, List.flatMap_cons, List.findSome?_append, check]
      cases e.parts.findSome? profile.missingFeature? <;> rfl

theorem division_of_validate (h : profile.validate = .ok ()) :
    ¬ (profile.divisionStyle = .native ∧ profile.dialect.safeDivision? = none) := by
  rintro ⟨hstyle, hnone⟩
  have hdivision : profile.division = some .native := by
    unfold divisionStyle at hstyle
    cases hasked : profile.division with
    | none => simp [hasked, hnone] at hstyle
    | some style =>
        rw [hasked] at hstyle
        exact congrArg some hstyle
  rw [validate, if_pos ⟨hdivision, hnone⟩] at h
  cases h

theorem lacks_eq_none (hvalidate : profile.validate = .ok ()) (h : profile.supports e = true) :
    e.lacks profile = none := by
  cases e with
  | dateTrunc grain inner =>
      have htruncation : profile.dialect.truncation?.isNone = false := by
        simpa [supports, Option.isSome_iff_ne_none] using h
      simp [Expr.lacks, htruncation]
  | percentile inner fraction discrete approximate =>
      have hpercentile :
          (profile.dialect.percentile? discrete approximate).isNone = false := by
        simpa [supports, Option.isSome_iff_ne_none] using h
      simp [Expr.lacks, hpercentile]
  | safeDivide numerator denominator =>
      rw [Expr.lacks, if_neg (division_of_validate hvalidate)]
  | _ => rfl

end Profile

/-! ## Queries take no usual spelling -/

section Queries

variable {profile : Profile}

theorem Expr.fallbacks_eq_nil {e : Expr} (h : ∀ part ∈ e.parts, part.lacks profile = none) :
    (e.traced profile).fallbacks = [] := by
  rw [List.eq_nil_iff_forall_not_mem]
  intro fallback hfallback
  obtain ⟨part, hpart, hlacks⟩ := List.mem_filterMap.mp ((mem_fallbacks_traced e).mp hfallback)
  rw [h part hpart] at hlacks
  cases hlacks

theorem fallbacks_tracedSelect (depth : Nat) (items : List SelectItem) :
    (tracedSelect profile depth items).fallbacks =
      items.flatMap fun item => (item.expr.traced profile).fallbacks := by
  have hitem : ∀ item : SelectItem,
      (item.traced profile).fallbacks = (item.expr.traced profile).fallbacks := by
    intro item
    unfold SelectItem.traced
    cases item.aliasName <;> simp
  simp [tracedSelect, List.flatMap_map, hitem]

theorem fallbacks_tracedGroup (depth : Nat) (keys : List Expr) :
    (tracedGroup profile depth keys).fallbacks =
      keys.flatMap fun key => (key.traced profile).fallbacks := by
  cases keys <;> simp [tracedGroup, List.flatMap_map]

theorem fallbacks_tracedOn (depth : Nat) (conditions : List Expr) :
    (tracedOn profile depth conditions).fallbacks =
      conditions.flatMap fun condition => (condition.traced profile).fallbacks := by
  cases conditions <;> simp [tracedOn, List.flatMap_map]

theorem fallbacks_tracedJoins (depth : Nat) (joins : List Join) :
    (tracedJoins profile depth joins).fallbacks =
      joins.flatMap fun join => (join.tracedAt profile depth).fallbacks := by
  induction joins with
  | nil => rfl
  | cons join rest ih => simp [tracedJoins, ih]

theorem Plan.fallbacks_tracedAt_query (plan : Plan)
    (h : ∀ stage ∈ plan.stages, ∀ column ∈ stage.columns, ∀ part ∈ column.expr.parts,
      part.lacks profile = none) (depth : Nat) :
    (plan.query.tracedAt profile depth).fallbacks = [] := by
  induction plan using children_induction generalizing depth with
  | step plan ih =>
      obtain ⟨hplan, hbelow⟩ := forall_stages_iff.mp h
      have hchild : ∀ child ∈ plan.children, ∀ depth,
          (child.query.tracedAt profile depth).fallbacks = [] :=
        fun child hchild => ih child hchild (hbelow child hchild)
      have hselect : (tracedSelect profile depth (selectItems plan.columns)).fallbacks = [] := by
        rw [fallbacks_tracedSelect, List.flatMap_eq_nil_iff]
        intro item hitem
        obtain ⟨column, hcolumn, hexpr⟩ := expr_of_mem_selectItems hitem
        exact Expr.fallbacks_eq_nil (hexpr ▸ hplan column hcolumn)
      have hsource : (tracedSource profile depth (some plan.source)).fallbacks = [] := by
        rcases source_eq plan with ⟨table, tableAlias, hsource, -⟩ | ⟨child, hsource, hmem⟩
        · simp [tracedSource, hsource, Relation.tracedAt]
        · simp [tracedSource, hsource, Relation.tracedAt, hchild child (by simp [hmem])]
      -- Conditions compare columns, so the expressions of the stage do not bear on them.
      have hjoins : (tracedJoins profile depth (plan.joined.map Joined.query)).fallbacks = [] := by
        rw [fallbacks_tracedJoins, List.flatMap_eq_nil_iff]
        intro join hjoin
        obtain ⟨target, htarget, rfl⟩ := List.mem_map.mp hjoin
        have hon : (tracedOn profile depth (conditions target.right.aliasName target.keys
            target.window)).fallbacks = [] := by
          rw [fallbacks_tracedOn, List.flatMap_eq_nil_iff]
          intro condition hcondition
          exact Expr.fallbacks_eq_nil (forall_parts_conditions (fun _ _ => rfl)
            (fun _ _ _ => rfl) (fun _ => rfl) (fun _ => rfl) condition hcondition)
        simp [Joined.query, Join.tracedAt, Relation.tracedAt, hon,
          hchild _ (right_mem_children htarget)]
      have hgroup : (tracedGroup profile depth plan.groupExprs).fallbacks = [] := by
        rw [fallbacks_tracedGroup, List.flatMap_eq_nil_iff]
        intro key hkey
        obtain ⟨column, hcolumn, rfl⟩ := expr_mem_groupExprs hkey
        exact Expr.fallbacks_eq_nil (hplan column hcolumn)
      rw [query_eq, Query.tracedAt]
      simp [hselect, hsource, hjoins, hgroup]

end Queries

/-! ## Rendering -/

theorem Plan.mem_flatMap_parts_iff {plan : Plan} {part : Expr} :
    part ∈ plan.exprs.flatMap Expr.parts ↔
      ∃ stage, Holds children plan stage ∧ ∃ column ∈ stage.columns,
        Holds Expr.children column.expr part := by
  simp only [List.mem_flatMap, mem_exprs_iff, ← stages_inPreorder.mem_iff_holds,
    ← Expr.parts_inPreorder.mem_iff_holds]
  constructor
  · rintro ⟨e, ⟨stage, hstage, column, hcolumn, rfl⟩, hpart⟩
    exact ⟨stage, hstage, column, hcolumn, hpart⟩
  · rintro ⟨stage, hstage, column, hcolumn, hpart⟩
    exact ⟨column.expr, ⟨stage, hstage, column, hcolumn, rfl⟩, hpart⟩

/-- Of a plan that has a text. -/
theorem Profile.render_eq
    {profile : Profile} {plan : Plan} {sql : String} (hvalidate : profile.validate = .ok ())
    (htext : plan.query.text profile = .ok sql) :
    profile.render plan =
      match (plan.exprs.flatMap Expr.parts).findSome? profile.missingFeature? with
      | some feature => .error (.unsupportedFeature profile.dialect feature)
      | none => .ok sql := by
  rw [render, hvalidate, htext, forM_check]
  cases (plan.exprs.flatMap Expr.parts).findSome? profile.missingFeature? <;> rfl

theorem Profile.validate_of_render
    {profile : Profile} {plan : Plan} {sql : String} (h : profile.render plan = .ok sql) :
    profile.validate = .ok () := by
  simp only [render, bind_eq_ok] at h
  obtain ⟨⟨⟩, hvalidate, -⟩ := h
  exact hvalidate

theorem Profile.exists_render_iff
    {profile : Profile} {plan : Plan} {sql : String} (htext : plan.query.text profile = .ok sql) :
    (∃ text, profile.render plan = .ok text) ↔
      profile.validate = .ok () ∧
        ∀ part ∈ plan.exprs.flatMap Expr.parts, profile.supports part = true := by
  rw [← findSome?_missingFeature?_eq_none_iff]
  constructor
  · rintro ⟨text, hrender⟩
    have hvalidate := validate_of_render hrender
    refine ⟨hvalidate, ?_⟩
    rw [render_eq hvalidate htext] at hrender
    cases hfirst : (plan.exprs.flatMap Expr.parts).findSome? profile.missingFeature? with
    | none => rfl
    | some feature => simp [hfirst] at hrender
  · rintro ⟨hvalidate, hnone⟩
    exact ⟨sql, by rw [render_eq hvalidate htext, hnone]⟩

/-- The check passes an expression exactly if no usual spelling of a truncation or a percentile is taken where the
expression is written.  A plan that planners have built is rendered exactly if its profile is valid and the dialect
can say all that the columns of its stages hold, at any depth.  Then no usual spelling at all is taken where its
query is written.  Else a valid profile refuses it for the first construct, in order, that the dialect cannot say. -/
theorem Session.render_iff_supports :
    (∀ (profile : Profile) (e : Expr),
      (e.traced profile).tokens = e.tokens profile ∧
        (profile.check e = .ok () ↔
          Fallback.truncation ∉ (e.traced profile).fallbacks ∧
            Fallback.percentile ∉ (e.traced profile).fallbacks)) ∧
    (∀ (profile : Profile) (query : Query),
      (query.traced profile).tokens = query.tokens profile) ∧
    InPreorder Plan.children Plan.stages ∧ InPreorder Expr.children Expr.parts ∧
    ∀ (calls : List PlannerCall), ∀ plan ∈ (run calls).nodes, ∀ profile : Profile,
      ((∃ sql, profile.render plan = .ok sql) ↔
        profile.validate = .ok () ∧
          ∀ stage, Holds Plan.children plan stage → ∀ column ∈ stage.columns,
            ∀ part, Holds Expr.children column.expr part → profile.supports part = true) ∧
      (∀ sql, profile.render plan = .ok sql → (plan.query.traced profile).fallbacks = []) ∧
      ∀ failure, profile.validate = .ok () → profile.render plan = .error failure →
        ∃ before part after feature,
          (plan.stages.flatMap fun stage => stage.columns.flatMap (·.expr.parts)) =
            before ++ part :: after ∧
          (∀ earlier ∈ before, profile.supports earlier = true) ∧
          profile.supports part = false ∧ profile.missingFeature? part = some feature ∧
          failure = .unsupportedFeature profile.dialect feature := by
  refine ⟨fun profile e => ⟨Expr.tokens_traced profile e, Profile.check_eq_ok_iff_fallbacks⟩,
    fun profile query => Query.tokens_tracedAt profile 0 query, Plan.stages_inPreorder,
    Expr.parts_inPreorder, ?_⟩
  intro calls plan hplan profile
  obtain ⟨text, htext⟩ := exists_text hplan profile
  have hrender := Profile.exists_render_iff htext
  refine ⟨?_, ?_, ?_⟩
  · rw [hrender]
    simp only [Plan.mem_flatMap_parts_iff]
    refine and_congr_right fun _ => ?_
    constructor
    · intro h stage hstage column hcolumn part hpart
      exact h part ⟨stage, hstage, column, hcolumn, hpart⟩
    · rintro h part ⟨stage, hstage, column, hcolumn, hpart⟩
      exact h stage hstage column hcolumn part hpart
  · intro sql hsql
    obtain ⟨hvalidate, hsupports⟩ := hrender.mp ⟨sql, hsql⟩
    refine plan.fallbacks_tracedAt_query ?_ 0
    intro stage hstage column hcolumn part hpart
    have hexpr : column.expr ∈ plan.exprs :=
      Plan.mem_exprs_iff.mpr ⟨stage, hstage, column, hcolumn, rfl⟩
    exact Profile.lacks_eq_none hvalidate
      (hsupports part (List.mem_flatMap.mpr ⟨column.expr, hexpr, hpart⟩))
  · intro failure hvalidate hfailure
    rw [Profile.render_eq hvalidate htext] at hfailure
    cases hfirst : (plan.exprs.flatMap Expr.parts).findSome? profile.missingFeature? with
    | none => simp [hfirst] at hfailure
    | some feature =>
        obtain ⟨before, part, after, hsplit, hpart, hbefore⟩ :=
          List.findSome?_eq_some_iff.mp hfirst
        have hunsupported : profile.supports part = false := by
          rw [← Bool.not_eq_true, ← Profile.missingFeature?_eq_none_iff, hpart]
          simp
        refine ⟨before, part, after, feature, ?_, ?_, hunsupported, hpart, ?_⟩
        · rw [← hsplit]
          simp [Plan.exprs, List.flatMap_map, List.flatMap_assoc]
        · intro earlier hearlier
          exact Profile.missingFeature?_eq_none_iff.mp (hbefore earlier hearlier)
        · simpa [hfirst] using hfailure.symm

namespace Sample

/-- Bookings by month. -/
def monthCalls : List PlannerCall := [
  .read bookings [⟨"listing", none⟩, ⟨"ds", some .month⟩, ⟨"amount", none⟩],
  .aggregate 0 ⟨["ds__month"], by decide⟩ [⟨"amount", .sum⟩]]

theorem months_need_truncation :
    ∃ plan ∈ (Session.run monthCalls).nodes, plan.columnNames = ["ds__month", "amount"] ∧
      (∃ sql, Profile.render {} plan = .ok sql) ∧ (plan.query.traced {}).fallbacks = [] ∧
      ∃ part feature, Profile.missingFeature? { dialect := .mysql } part = some feature ∧
        Profile.render { dialect := .mysql } plan = .error (.unsupportedFeature .mysql feature) := by
  have hlast : ∃ plan ∈ (Session.run monthCalls).nodes, plan.columnNames = ["ds__month", "amount"] ∧
      (Profile.render {} plan).isOk = true ∧
      (Profile.render { dialect := .mysql } plan).isOk = false := by
    decide +kernel
  obtain ⟨plan, hplan, hnames, hrendered, hrefused⟩ := hlast
  obtain ⟨-, -, -, -, hrenders⟩ := Session.render_iff_supports
  obtain ⟨-, hnone, -⟩ := hrenders monthCalls plan hplan {}
  obtain ⟨-, -, hfirst⟩ := hrenders monthCalls plan hplan { dialect := .mysql }
  cases hsql : Profile.render {} plan with
  | error failure => simp [hsql, Except.isOk, Except.toBool] at hrendered
  | ok sql =>
      cases hfailure : Profile.render { dialect := .mysql } plan with
      | ok text => simp [hfailure, Except.isOk, Except.toBool] at hrefused
      | error failure =>
          obtain ⟨-, part, -, feature, -, -, -, hpart, hcause⟩ := hfirst failure rfl hfailure
          rw [hcause] at hfailure
          exact ⟨plan, hplan, hnames, ⟨sql, hsql⟩, hnone sql hsql, part, feature, hpart, hfailure⟩

end Sample

end MetricSql
