import MetricSql.Compile
import MetricSql.Proofs.Lexeme.Layout
import MetricSql.Proofs.Plan.Calls
import MetricSql.Proofs.Plan.Formed

/-!
# Everything planned can be written

A number literal has no text when it is an infinity or not a number, and an aggregation cannot group by more
columns than it has.  Neither is met in a plan that planners have built: literals are checked where a formula is
compiled, fractions where a measure is aggregated, and the keys of an aggregation are its first columns.  So
compilation gives SQL or refuses the request for a reason; it never breaks off.
-/

namespace MetricSql

/-! ## Finite doubles -/

namespace Decimal

open Float.Model

/-- A double is finite unless its exponent is the largest one. -/
theorem isFinite_iff (x : Float) :
    isFinite x = true ↔ x.toBits.toNat / 2 ^ 52 % 2048 ≠ 2047 := by
  simp only [isFinite, read, Reading.ofBits, Nat.pow_eq]
  by_cases hscale : x.toBits.toNat / 2 ^ 52 % 2048 = 2047
  · rw [if_pos hscale]
    by_cases hfraction : x.toBits.toNat % 2 ^ 52 = 0
    · rw [if_pos hfraction]
      exact iff_of_false nofun (not_not_intro hscale)
    · rw [if_neg hfraction]
      exact iff_of_false nofun (not_not_intro hscale)
  · rw [if_neg hscale]
    by_cases hzero : x.toBits.toNat / 2 ^ 52 % 2048 = 0
    · rw [if_pos hzero]
      exact iff_of_true rfl hscale
    · rw [if_neg hzero]
      exact iff_of_true rfl hscale

theorem isFinite_of_unpack {x : Float} (h : x.toModel.unpack.isFinite = true) :
    isFinite x = true := by
  rw [isFinite_iff]
  intro hscale
  have hexponent :
      @UnpackedFloat.unpackExponent .binary64 x.toModel.toBits.toBitVec = -1#11 := by
    apply BitVec.eq_of_toNat_eq
    change x.toModel.toBits.toNat / 2 ^ 52 % 2048 = 2047 at hscale
    simpa [UnpackedFloat.unpackExponent, Nat.shiftRight_eq_div_pow] using hscale
  have hunpack : x.toModel.unpack = _ := if_pos hexponent
  rw [hunpack] at h
  split at h <;> cases h

theorem le_iff_unpack (x y : Float) :
    x ≤ y ↔ x.toModel.unpack.le y.toModel.unpack = true := by
  change Float.le x y = true ↔ _
  rw [Float.le, decide_eq_true_iff]
  rfl

/-- What is not a number compares with nothing, and the infinities lie outside all bounds. -/
theorem unpacked_isFinite_of_le
    {x : UnpackedFloat} {s : UnpackedFloat.Sign} {m : Nat} {e : Int} {hm : 0 < m}
    (hlower : (UnpackedFloat.zero s).le x = true)
    (hupper : x.le (.finite .positive m e hm) = true) : x.isFinite = true := by
  cases x with
  | notANumber => cases hupper
  | infinity sign =>
      cases sign with
      | positive => cases hupper
      | negative => cases hlower
  | zero sign => rfl
  | finite sign mantissa exponent _ => rfl

theorem isFinite_of_mem_unit {x : Float} (hlower : 0.0 ≤ x) (hupper : x ≤ 1.0) :
    isFinite x = true := by
  rw [le_iff_unpack] at hlower hupper
  apply isFinite_of_unpack
  exact unpacked_isFinite_of_le hlower hupper

end Decimal

/-! ## Printable tokens -/

def Token.isPrintable : Token → Bool
  | float value => Decimal.isFinite value
  | _ => true

/-- All tokens have a text. -/
def Printable (tokens : List Token) : Prop := ∀ token ∈ tokens, token.isPrintable = true

@[simp]
theorem printable_nil : Printable [] := by
  simp [Printable]

@[simp]
theorem printable_cons {token : Token} {tokens : List Token} :
    Printable (token :: tokens) ↔ token.isPrintable = true ∧ Printable tokens := by
  simp [Printable]

@[simp]
theorem printable_append {tokens others : List Token} :
    Printable (tokens ++ others) ↔ Printable tokens ∧ Printable others := by
  simp [Printable, or_imp, forall_and]

theorem Token.exists_text {profile : Profile} {token : Token} (h : token.isPrintable = true) :
    ∃ text, token.text profile = .ok text := by
  cases token with
  | float value =>
      simp only [isPrintable, Decimal.isFinite] at h
      simp only [Token.text, floatText]
      cases hread : Decimal.read value with
      | notANumber => simp [hread] at h
      | infinite negative => simp [hread] at h
      | finite negative m => exact ⟨_, rfl⟩
  | _ => exact ⟨_, rfl⟩

theorem Printable.exists_text {profile : Profile} {tokens : List Token}
    (h : Printable tokens) : ∃ text, Token.textAll profile tokens = .ok text := by
  induction tokens with
  | nil => exact ⟨_, rfl⟩
  | cons token rest ih =>
      rw [printable_cons] at h
      obtain ⟨first, hfirst⟩ := Token.exists_text h.1
      obtain ⟨others, hothers⟩ := ih h.2
      refine ⟨first ++ others, ?_⟩
      rw [Token.textAll, hfirst, hothers]
      rfl

/-! ## Expressions -/

namespace Expr

open Token

/-- Whether the numbers that the outermost construct holds are finite. -/
def isPrintable : Expr → Bool
  | float value => Decimal.isFinite value
  | percentile _ fraction _ _ => Decimal.isFinite fraction
  | _ => true

@[simp]
theorem printable_separator : Printable separator := by
  simp [separator, Token.isPrintable]

theorem printable_tokens (profile : Profile) (e : Expr)
    (h : ∀ part ∈ e.parts, part.isPrintable = true) : Printable (e.tokens profile) := by
  have hdouble : ∀ part ∈ e.parts, ∀ value ∈ part.double?, Decimal.isFinite value = true := by
    intro part hpart value hvalue
    have hprintable := h part hpart
    cases part with
    | float | percentile =>
        cases hvalue
        exact hprintable
    | _ => cases hvalue
  intro token htoken
  have hinline := List.all_eq_true.mp (all_tokens hdouble) token htoken
  cases token with
  | float value => exact hinline
  | _ => rfl

end Expr

/-! ## Queries -/

section Clauses

open Token

variable {profile : Profile} {depth : Nat}

@[simp]
theorem printable_lineAt : Printable (lineAt depth) := by
  simp [lineAt, Token.isPrintable]

theorem printable_flatMap
    {α : Type} {entries : List α} {f : α → List Token}
    (h : ∀ entry ∈ entries, Printable (f entry)) : Printable (entries.flatMap f) := by
  intro token htoken
  obtain ⟨entry, hentry, hmem⟩ := List.mem_flatMap.mp htoken
  exact h entry hentry token hmem

theorem printable_linesOf
    {separator : List Token} {entries : List (List Token)} (hseparator : Printable separator)
    (h : ∀ entry ∈ entries, Printable entry) : Printable (linesOf depth separator entries) := by
  cases entries with
  | nil => simp [linesOf]
  | cons first rest =>
      have hrest : Printable (rest.flatMap fun entry => lineAt depth ++ separator ++ entry) := by
        apply printable_flatMap
        intro entry hentry
        simp [hseparator, h entry (List.mem_cons_of_mem _ hentry)]
      simp only [linesOf, printable_append]
      exact ⟨⟨printable_lineAt, h first List.mem_cons_self⟩, hrest⟩

theorem printable_commentLines (comments : List String) :
    Printable (commentLines profile depth comments) := by
  unfold commentLines
  split
  next =>
    apply printable_flatMap
    simp [Token.isPrintable]
  next => simp

/-- A clause that lists expressions. -/
theorem printable_exprLines
    {separator : List Token} {exprs : List Expr} (hseparator : Printable separator)
    (h : ∀ e ∈ exprs, Printable (e.tokens profile)) :
    Printable (linesOf depth separator (exprs.map (·.tokens profile))) := by
  apply printable_linesOf hseparator
  simpa using h

theorem SelectItem.printable_tokens
    {item : SelectItem} (h : Printable (item.expr.tokens profile)) :
    Printable (item.tokens profile) := by
  unfold SelectItem.tokens
  cases item.aliasName <;> simp [Token.isPrintable, h]

theorem printable_selectLines
    {items : List SelectItem} (h : ∀ item ∈ items, Printable (item.expr.tokens profile)) :
    Printable (selectLines profile depth items) := by
  have hlines :
      Printable (linesOf (depth + 1) Expr.separator (items.map (·.tokens profile))) := by
    apply printable_linesOf Expr.printable_separator
    simpa using fun item hitem => SelectItem.printable_tokens (h item hitem)
  simp [selectLines, Token.isPrintable, hlines]

theorem printable_groupLines
    {keys : List Expr} (h : ∀ key ∈ keys, Printable (key.tokens profile)) :
    Printable (groupLines profile depth keys) := by
  unfold groupLines
  split
  next => simp
  next => simp [Token.isPrintable, printable_exprLines Expr.printable_separator h]

theorem printable_onLines
    {conditions : List Expr} (h : ∀ e ∈ conditions, Printable (e.tokens profile)) :
    Printable (onLines profile depth conditions) := by
  have hseparator : Printable [keyword .AND, space] := by
    simp [Token.isPrintable]
  unfold onLines
  split
  next => simp
  next => simp [Token.isPrintable, printable_exprLines hseparator h]

theorem Relation.printable_subquery
    {query : Query} {aliasName : String} (h : Printable (query.tokensAt profile (depth + 1))) :
    Printable (Relation.tokensAt profile depth (.subquery query aliasName)) := by
  simp [Relation.tokensAt, Token.isPrintable, h]

theorem Join.printable_tokensAt
    {join : Join} (hrelation : Printable (join.relation.tokensAt profile depth))
    (hon : ∀ e ∈ join.on, Printable (e.tokens profile)) :
    Printable (join.tokensAt profile depth) := by
  obtain ⟨kind, relation, on⟩ := join
  have hkind : Printable kind.tokens := by
    cases kind <;> simp [JoinKind.tokens, Token.isPrintable]
  simp [Join.tokensAt, hkind, hrelation, printable_onLines hon]

theorem printable_joinLines
    {joins : List Join} (h : ∀ join ∈ joins, Printable (join.tokensAt profile depth)) :
    Printable (joinLines profile depth joins) := by
  induction joins with
  | nil => simp [joinLines]
  | cons join rest ih =>
      have hrest := ih fun other hother => h other (List.mem_cons_of_mem _ hother)
      simp [joinLines, h join List.mem_cons_self, hrest]

end Clauses

/-! ## Plans -/

namespace Plan

theorem printable_query
    {profile : Profile} (plan : Plan)
    (h : ∀ stage ∈ plan.stages, ∀ column ∈ stage.columns, ∀ part ∈ column.expr.parts,
      part.isPrintable = true)
    (depth : Nat) : Printable (plan.query.tokensAt profile depth) := by
  induction plan using children_induction generalizing depth with
  | step plan ih =>
      obtain ⟨hplan, hbelow⟩ := forall_stages_iff.mp h
      have hchild : ∀ child ∈ plan.children, ∀ depth,
          Printable (child.query.tokensAt profile depth) :=
        fun child hmem => ih child hmem (hbelow child hmem)
      have hcolumns : ∀ column ∈ plan.columns, Printable (column.expr.tokens profile) :=
        fun column hcolumn => Expr.printable_tokens profile _ (hplan column hcolumn)
      have hselect : Printable (selectLines profile depth (selectItems plan.columns)) := by
        apply printable_selectLines
        intro item hitem
        obtain ⟨column, hcolumn, hexpr⟩ := expr_of_mem_selectItems hitem
        exact hexpr ▸ hcolumns column hcolumn
      have hsource : Printable (plan.source.tokensAt profile depth) := by
        rcases source_eq plan with ⟨table, tableAlias, hsource, -⟩ | ⟨child, hsource, hmem⟩
        · rw [hsource]
          simp [Relation.tokensAt, TableRef.tokens, Token.isPrintable]
        · rw [hsource]
          exact Relation.printable_subquery (hchild child (by simp [hmem]) (depth + 1))
      have hjoins : Printable (joinLines profile depth (plan.joined.map Joined.query)) := by
        apply printable_joinLines
        intro join hjoin
        obtain ⟨target, htarget, rfl⟩ := List.mem_map.mp hjoin
        apply Join.printable_tokensAt
        · exact Relation.printable_subquery (hchild _ (right_mem_children htarget) (depth + 1))
        · intro condition hcondition
          apply Expr.printable_tokens
          exact forall_parts_conditions (fun _ _ => rfl) (fun _ _ _ => rfl) (fun _ => rfl)
            (fun _ => rfl) condition hcondition
      have hgroup : Printable (groupLines profile depth plan.groupExprs) := by
        apply printable_groupLines
        intro key hkey
        obtain ⟨column, hcolumn, rfl⟩ := expr_mem_groupExprs hkey
        exact hcolumns column hcolumn
      rw [query_eq, Query.tokensAt, sourceLines]
      simp [Token.isPrintable, printable_commentLines, hselect, hsource, hjoins, hgroup]

end Plan

/-! ## What planners write -/

namespace Expr

/-- All numbers in the expression are finite. -/
def FiniteParts (e : Expr) : Prop := ∀ part ∈ e.parts, part.isPrintable = true

theorem finiteParts_cons
    {e : Expr} {inner : List Expr} (hparts : e.parts = e :: inner)
    (hself : e.isPrintable = true) (hinner : ∀ part ∈ inner, part.isPrintable = true) :
    e.FiniteParts := by
  rw [FiniteParts, hparts, List.forall_mem_cons]
  exact ⟨hself, hinner⟩

theorem finiteParts_of (table name : String) : (Expr.of table name).FiniteParts :=
  finiteParts_cons rfl rfl (by simp)

theorem finiteParts_physical (tableAlias expression : String) :
    (physical tableAlias expression).FiniteParts := by
  unfold physical
  split
  next => exact finiteParts_of _ _
  next => exact finiteParts_cons rfl rfl (by simp)

theorem FiniteParts.asOperand {e : Expr} (h : e.FiniteParts) : e.asOperand.FiniteParts := by
  unfold Expr.asOperand
  split
  next => exact finiteParts_cons rfl rfl h
  next => exact h

theorem FiniteParts.binary
    {left right : Expr} (hleft : left.FiniteParts) (hright : right.FiniteParts)
    (op : BinaryOp) : (binary op left right).FiniteParts :=
  finiteParts_cons rfl rfl (List.forall_mem_append.mpr ⟨hleft, hright⟩)

theorem FiniteParts.safeDivide
    {left right : Expr} (hleft : left.FiniteParts) (hright : right.FiniteParts) :
    (safeDivide left right).FiniteParts :=
  finiteParts_cons rfl rfl (List.forall_mem_append.mpr ⟨hleft, hright⟩)

end Expr

theorem Model.finiteParts_elementColumn
    (tableAlias : String) (ref : ElementRef) (element : Element) :
    (elementColumn tableAlias ref element).expr.FiniteParts := by
  cases element with
  | entity entity => exact Expr.finiteParts_physical _ _
  | dimension dimension =>
      simp only [elementColumn]
      split
      next => exact Expr.finiteParts_cons rfl rfl (Expr.finiteParts_physical _ _)
      next => exact Expr.finiteParts_physical _ _
  | measure measure =>
      simp only [elementColumn]
      split
      next => exact Expr.finiteParts_physical _ _
      next => exact Expr.finiteParts_cons rfl rfl (by simp)

theorem MeasureTerm.finiteParts_expr
    {term : MeasureTerm} {aliasName name : String} {e : Expr}
    (h : term.expr (.of aliasName name) = .ok e) : e.FiniteParts := by
  unfold MeasureTerm.expr at h
  cases haggregation : term.aggregation with
  | percentile fraction discrete approximate =>
      simp only [haggregation] at h
      by_cases hfraction : 0.0 ≤ fraction ∧ fraction ≤ 1.0
      · rw [if_pos hfraction] at h
        cases h
        exact Expr.finiteParts_cons rfl
          (Decimal.isFinite_of_mem_unit hfraction.1 hfraction.2) (Expr.finiteParts_of _ _)
      · rw [if_neg hfraction] at h
        cases h
  | _ =>
      simp only [haggregation] at h
      cases h
      simp [Expr.FiniteParts, Expr.sum, Expr.count, Expr.min, Expr.max, Expr.countDistinct,
        Expr.avg, Expr.indicator, Expr.of, Expr.parts, Expr.argParts, Expr.branchParts,
        Expr.otherwiseParts, Expr.isPrintable]

theorem Operator.finiteParts_apply
    {operator : Operator} {left right : Expr} (hleft : left.FiniteParts)
    (hright : right.FiniteParts) : (operator.apply left right).FiniteParts := by
  cases operator with
  | add => exact hleft.asOperand.binary hright.asOperand _
  | sub => exact hleft.asOperand.binary hright.asOperand _
  | mul => exact hleft.asOperand.binary hright.asOperand _
  | div => exact hleft.safeDivide hright

theorem Formula.finiteParts_compile
    {input : Plan} {metric : String} {formula : Formula} {e : Expr}
    {dataType : Option DataType} (h : formula.compile input metric = .ok (e, dataType)) :
    e.FiniteParts := by
  induction formula generalizing e dataType with
  | input name =>
      simp only [Formula.compile] at h
      split at h
      next =>
        cases h
        exact Expr.finiteParts_of _ _
      next => cases h
  | literal value =>
      simp only [Formula.compile] at h
      by_cases hvalue : Decimal.isFinite value = true
      · rw [if_pos hvalue] at h
        cases h
        exact Expr.finiteParts_cons rfl hvalue (by simp)
      · rw [if_neg hvalue] at h
        cases h
  | neg operand ih =>
      simp only [Formula.compile, bind_eq_ok] at h
      obtain ⟨⟨inner, innerType⟩, hinner, ⟨⟩⟩ := h
      exact Expr.finiteParts_cons rfl rfl (ih hinner).asOperand
  | binary operator left right ihleft ihright =>
      simp only [Formula.compile, bind_eq_ok] at h
      obtain ⟨⟨l, leftType⟩, hleft, ⟨r, rightType⟩, hright, ⟨⟩⟩ := h
      exact Operator.finiteParts_apply (ihleft hleft) (ihright hright)
  | ratio numerator denominator ihnum ihden =>
      simp only [Formula.compile, bind_eq_ok] at h
      obtain ⟨⟨num, numType⟩, hnum, ⟨den, denType⟩, hden, ⟨⟩⟩ := h
      have hcast := Expr.finiteParts_cons (e := .castFloat num) rfl rfl (ihnum hnum)
      exact hcast.safeDivide (Expr.finiteParts_cons rfl rfl (ihden hden))

theorem Expr.Planned.finiteParts {e : Expr} (h : e.Planned) : e.FiniteParts := by
  cases h with
  | taken aliasName name => exact finiteParts_of _ _
  | element tableAlias ref element => exact Model.finiteParts_elementColumn _ _ _
  | measure hmeasure => exact MeasureTerm.finiteParts_expr hmeasure
  | metric hmetric => exact Formula.finiteParts_compile hmetric

theorem Plan.Planned.printable_tokens
    {plan : Plan} (h : plan.Planned) (profile : Profile) :
    Printable (plan.query.tokens profile) := by
  apply Plan.printable_query
  intro stage hstage column hcolumn
  exact (h stage hstage column hcolumn).finiteParts

/-- An aggregation groups by as many columns as it has keys. -/
theorem Plan.Formed.length_keys_le
    {aliasName : String} {input : Plan} {keys : GroupKeys} {measures : List MeasureTerm}
    {columns : List Column} (h : (aggregate aliasName input keys measures columns).Formed) :
    keys.names.length ≤ columns.length := by
  obtain ⟨inputAlias, hgrouped⟩ := h.grouped
  have hlength := congrArg List.length hgrouped
  simp only [groupExprs, groupNames, List.length_map, List.length_take] at hlength
  omega

end MetricSql
