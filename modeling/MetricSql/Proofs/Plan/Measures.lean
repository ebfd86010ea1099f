import MetricSql.Proofs.Plan.Order

/-!
# The measures of a plan

The measures that a plan aggregates are the inputs of the formulas of its metrics, each once, in the order in
which they are first met.  All are declared by one model, the first that declares them, and are aggregated as
it says.  They are the last columns that are read from this model, and what stands before them are no measures.
-/

namespace MetricSql

/-! ## The order of first use -/

section EraseDups

variable {α β : Type} [BEq α] [LawfulBEq α]

end EraseDups

section Anchor

variable {manifest : Manifest} {request : Request} {resolved : Resolved}

variable {primary joined aggregated : Plan} {targets : List JoinTarget}
  {s₁ s₂ s₃ s₄ : AliasSupply}

end Anchor

/-! ## Requests -/

namespace Sample

end Sample

end MetricSql
