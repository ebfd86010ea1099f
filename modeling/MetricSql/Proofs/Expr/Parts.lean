import Mathlib.Logic.Relation
import MetricSql.Expr.Tokens

/-!
# Expressions and their parts

Expressions and plans are trees in which a node has any number of children.  What
is said of such trees is said once, for every tree that is listed with a node
before what is below it: `InPreorder.induction` goes from the children to the
node, and `InPreorder.all_induction` does so in trees of which something is known
of every node.  `Expr.all_tokens` says which tokens an expression is written with:
those that stand inside a line, and no doubles but the ones in its parts.
-/

namespace MetricSql

/-! ## Trees in order -/

section Preorder

variable {α : Type} {children all : α → List α} {x y : α}

/-- Lists a tree, everything before what is below it and this from left to right. -/
def InPreorder (children all : α → List α) : Prop :=
  ∀ x, all x = x :: (children x).flatMap all

/-- The tree of the first holds the second, at any depth. -/
def Holds (children : α → List α) (x y : α) : Prop :=
  Relation.ReflTransGen (fun parent child => child ∈ children parent) x y

namespace InPreorder

theorem mem_of_child
    (h : InPreorder children all) {child : α} (hchild : child ∈ children x) (hy : y ∈ all child) :
    y ∈ all x := by
  rw [h x]
  exact List.mem_cons_of_mem _ (List.mem_flatMap.mpr ⟨child, hchild, hy⟩)

theorem length_lt
    (h : InPreorder children all) {child : α} (hchild : child ∈ children x) :
    (all child).length < (all x).length := by
  have hsublist : (all child).Sublist ((children x).flatMap all) :=
    List.sublist_flatten_of_mem (List.mem_map_of_mem hchild)
  rw [h x, List.length_cons]
  exact Nat.lt_succ_of_le hsublist.length_le

/-- What passes from the children of a node to the node holds of all trees. -/
theorem induction (h : InPreorder children all) {P : α → Prop}
    (step : ∀ x, (∀ child ∈ children x, P child) → P x) (x : α) : P x := by
  -- Every child has fewer entries.
  induction hlength : (all x).length using Nat.strongRecOn generalizing x with
  | _ length ih =>
      apply step
      intro child hchild
      have hlt := h.length_lt hchild
      rw [hlength] at hlt
      exact ih _ hlt child rfl

/-- What holds of all nodes holds of the first one and of all nodes below. -/
theorem forall_iff (h : InPreorder children all) {P : α → Prop} :
    (∀ y ∈ all x, P y) ↔ P x ∧ ∀ child ∈ children x, ∀ y ∈ all child, P y := by
  rw [h x]
  simp only [List.mem_cons, List.mem_flatMap]
  constructor
  · intro hall
    exact ⟨hall x (.inl rfl), fun child hchild y hy => hall y (.inr ⟨child, hchild, hy⟩)⟩
  · rintro ⟨hx, hbelow⟩ y (rfl | ⟨child, hchild, hy⟩)
    · exact hx
    · exact hbelow child hchild y hy

/-- The induction for trees all of whose nodes are good. -/
theorem all_induction (h : InPreorder children all) {good P : α → Prop}
    (step : ∀ x, good x → (∀ child ∈ children x, ∀ y ∈ all child, good y) →
      (∀ child ∈ children x, P child) → P x)
    (hall : ∀ y ∈ all x, good y) : P x := by
  induction x using h.induction with
  | step x ih =>
      obtain ⟨hx, hbelow⟩ := h.forall_iff.mp hall
      exact step x hx hbelow fun child hchild => ih child hchild (hbelow child hchild)

theorem mem_iff_holds (h : InPreorder children all) : y ∈ all x ↔ Holds children x y := by
  constructor
  · intro hy
    induction x using h.induction with
    | step x ih =>
        rw [h x, List.mem_cons, List.mem_flatMap] at hy
        rcases hy with rfl | ⟨child, hchild, hy⟩
        · exact .refl
        · exact .head hchild (ih child hchild hy)
  · intro hholds
    induction hholds using Relation.ReflTransGen.head_induction_on with
    | refl =>
        rw [h y]
        exact List.mem_cons_self
    | head hchild _ ih => exact h.mem_of_child hchild ih

end InPreorder

end Preorder

/-! ## The parts of an expression -/

namespace Expr

/-- The expressions directly below, from left to right. -/
def children : Expr → List Expr
  | column .. | int _ | float _ | raw _ => []
  | binary _ left right => [left, right]
  | neg operand | isNull operand => [operand]
  | call _ args _ => args
  | case branches otherwise =>
    (branches.flatMap fun branch => [branch.1, branch.2]) ++ otherwise.toList
  | paren inner | castFloat inner | dateTrunc _ inner | percentile inner .. => [inner]
  | safeDivide numerator denominator => [numerator, denominator]

theorem argParts_eq (args : List Expr) : argParts args = args.flatMap parts := by
  induction args with
  | nil => rfl
  | cons arg rest ih => rw [argParts, ih, List.flatMap_cons]

theorem branchParts_eq (branches : List (Expr × Expr)) :
    branchParts branches =
      (branches.flatMap fun branch => [branch.1, branch.2]).flatMap parts := by
  induction branches with
  | nil => rfl
  | cons branch rest ih => simp [branchParts, ih]

theorem otherwiseParts_eq (otherwise : Option Expr) :
    otherwiseParts otherwise = otherwise.toList.flatMap parts := by
  cases otherwise with
  | none => rfl
  | some e => simp [otherwiseParts]

theorem parts_inPreorder : InPreorder children parts := by
  intro e
  cases e with
  | call function args distinct => rw [parts, argParts_eq, children]
  | case branches otherwise =>
      rw [parts, branchParts_eq, otherwiseParts_eq, children, List.flatMap_append]
  | _ => simp [parts, children]

theorem self_mem_parts (e : Expr) : e ∈ e.parts := by
  rw [parts_inPreorder e]
  exact List.mem_cons_self

@[elab_as_elim]
theorem parts_induction {good P : Expr → Prop}
    (step : ∀ e, good e → (∀ child ∈ e.children, ∀ part ∈ child.parts, good part) →
      (∀ child ∈ e.children, P child) → P e) (e : Expr)
    (h : ∀ part ∈ e.parts, good part) : P e :=
  parts_inPreorder.all_induction step h

theorem forall_children_case {P : Expr → Prop} {branches : List (Expr × Expr)}
    {otherwise : Option Expr} (h : ∀ child ∈ (case branches otherwise).children, P child) :
    (∀ branch ∈ branches, P branch.1 ∧ P branch.2) ∧ ∀ e ∈ otherwise, P e := by
  simp only [children, List.mem_append, List.mem_flatMap] at h
  refine ⟨fun branch hbranch => ⟨?_, ?_⟩, fun e he => ?_⟩
  · exact h _ (.inl ⟨branch, hbranch, List.mem_cons_self⟩)
  · exact h _ (.inl ⟨branch, hbranch, List.mem_cons_of_mem _ List.mem_cons_self⟩)
  · exact h e (.inr (Option.mem_toList.mpr he))

/-! ## Lists inside an expression -/

open Token

variable {profile : Profile}

theorem moreArgTokens_eq (args : List Expr) :
    moreArgTokens profile args = args.flatMap fun arg => separator ++ arg.tokens profile := by
  induction args with
  | nil => rfl
  | cons arg rest ih => rw [moreArgTokens, ih, List.flatMap_cons]

theorem branchTokens_eq (branches : List (Expr × Expr)) :
    branchTokens profile branches = branches.flatMap fun branch =>
      [space, Token.keyword .WHEN, space] ++ branch.1.tokens profile ++
        [space, Token.keyword .THEN, space] ++ branch.2.tokens profile := by
  induction branches with
  | nil => rfl
  | cons branch rest ih => rw [branchTokens, ih, List.flatMap_cons]

end Expr

/-! ## Tokens of an expression -/

/-- Whether the token stands inside a line of code, as a good double if it is one. -/
def Token.isInlineWith (good : Float → Bool) : Token → Bool
  | float value => good value
  | newline | indent _ | comment _ => false
  | _ => true

namespace Expr

open Token

/-- The double that the outermost construct holds. -/
def double? : Expr → Option Float
  | float value => some value
  | percentile _ fraction _ _ => some fraction
  | _ => none

section All

attribute [local simp] callTokens parenthesized separator isInlineWith children

variable {profile : Profile} {good : Float → Bool}

theorem all_argTokens {args : List Expr}
    (h : ∀ arg ∈ args, (arg.tokens profile).all (isInlineWith good) = true) :
    (argTokens profile args).all (isInlineWith good) = true := by
  cases args with
  | nil => rfl
  | cons arg rest =>
      obtain ⟨harg, hrest⟩ := List.forall_mem_cons.mp h
      rw [argTokens, moreArgTokens_eq, List.all_append, harg, List.all_flatMap, Bool.true_and,
        List.all_eq_true]
      intro other hother
      simp [hrest other hother]

theorem all_branchTokens {branches : List (Expr × Expr)}
    (h : ∀ branch ∈ branches,
      (branch.1.tokens profile).all (isInlineWith good) = true ∧
        (branch.2.tokens profile).all (isInlineWith good) = true) :
    (branchTokens profile branches).all (isInlineWith good) = true := by
  rw [branchTokens_eq, List.all_flatMap, List.all_eq_true]
  intro branch hbranch
  obtain ⟨hcondition, hresult⟩ := h branch hbranch
  simp [hcondition, hresult]

theorem all_otherwiseTokens {otherwise : Option Expr}
    (h : ∀ e ∈ otherwise, (e.tokens profile).all (isInlineWith good) = true) :
    (otherwiseTokens profile otherwise).all (isInlineWith good) = true := by
  cases otherwise with
  | none => rfl
  | some e => simp [otherwiseTokens, h e rfl]

theorem all_operandTokens (e : Expr) {tokens : List Token}
    (h : tokens.all (isInlineWith good) = true) :
    (operandTokens e tokens).all (isInlineWith good) = true := by
  unfold operandTokens
  split
  · simp [h]
  · exact h

theorem all_divisionTokens {numerator denominator guarded : List Token}
    (hnumerator : numerator.all (isInlineWith good) = true)
    (hdenominator : denominator.all (isInlineWith good) = true)
    (hguarded : guarded.all (isInlineWith good) = true) :
    (divisionTokens profile numerator denominator guarded).all (isInlineWith good) = true := by
  unfold divisionTokens
  split <;> simp [hnumerator, hdenominator, hguarded]

/-- An expression is written on one line, and its doubles are those in its parts. -/
theorem all_tokens {e : Expr}
    (hdouble : ∀ part ∈ e.parts, ∀ value ∈ part.double?, good value = true) :
    (e.tokens profile).all (isInlineWith good) = true := by
  refine parts_induction (fun e hself _ ih => ?_) e hdouble
  cases e with
  | column table name => cases table <;> simp [tokens]
  | int value => simp [tokens]
  | float value => simpa [tokens, double?] using hself
  | binary op left right =>
      have hleft := ih left (by simp)
      have hright := ih right (by simp)
      cases op <;> simp [tokens, BinaryOp.token, hleft, hright]
  | neg operand =>
      have hoperand := ih operand (by simp)
      rw [tokens]
      split <;> simp [hoperand]
  | isNull operand =>
      have hoperand := ih operand (by simp)
      simp [tokens, hoperand]
  | call name args distinct =>
      have hargs : (argTokens profile args).all (isInlineWith good) = true := all_argTokens ih
      cases distinct <;> simp [tokens, hargs]
  | case branches otherwise =>
      obtain ⟨hbranches, hotherwise⟩ := forall_children_case ih
      have hfront := all_branchTokens hbranches
      have hback := all_otherwiseTokens hotherwise
      simp [tokens, hfront, hback]
  | paren inner =>
      have hinner := ih inner (by simp)
      simp [tokens, hinner]
  | castFloat inner =>
      have hinner := ih inner (by simp)
      simp [tokens, hinner]
  | safeDivide numerator denominator =>
      have hnumerator := ih numerator (by simp)
      have hdenominator := ih denominator (by simp)
      rw [tokens]
      exact all_divisionTokens (all_operandTokens numerator hnumerator)
        hdenominator (all_operandTokens denominator hdenominator)
  | dateTrunc grain inner =>
      have hinner := ih inner (by simp)
      rw [tokens, truncationTokens]
      split <;> simp [hinner]
  | percentile inner fraction discrete approximate =>
      have hinner := ih inner (by simp)
      have hfraction := hself fraction rfl
      rw [tokens, percentileTokens]
      split <;> simp [hinner, hfraction]
  | raw sql => simp [tokens]

end All

end Expr

end MetricSql
