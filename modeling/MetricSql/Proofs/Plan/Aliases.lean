import MetricSql.Proofs.Lexeme.Number
import MetricSql.Proofs.Plan.Session

/-!
# Aliases over a run

Every call of a planner draws on one supply of aliases, whether it succeeds or not.  A node alias is taken only
when a node is built, so nodes are numbered without a gap whatever failed between them.  A table alias is taken
before the elements of a read are bound, so failures leave gaps there; but no number is given twice, and the number
can be read off the end of the alias whatever the name of the model is.
-/

namespace MetricSql

namespace AliasSupply

/-! ## The number at the end of an alias -/

/-- The digits after the last underscore are the number, and the rest is what the number was put behind. -/
theorem numbered_inj
    {front front' : List Char} {m n : Nat}
    (h : front ++ '_' :: Decimal.digitsOf m = front' ++ '_' :: Decimal.digitsOf n) :
    front = front' ∧ m = n := by
  have hdigits : ∀ k, ∀ c ∈ (Decimal.digitsOf k).reverse, c.isDigit = true := by
    intro k c hc
    exact Decimal.isDigit_of_mem_digitsOf (List.mem_reverse.mp hc)
  have hstop : ∀ rest : List Char, ∀ c ∈ ('_' :: rest).head?, c.isDigit = false := by
    simp
  have hreverse := congrArg List.reverse h
  simp only [List.reverse_append, List.reverse_cons, List.append_assoc,
    List.singleton_append] at hreverse
  have hnumber := congrArg (List.takeWhile Char.isDigit) hreverse
  rw [Lexeme.takeWhile_append_of_stop (hdigits m) (hstop _),
    Lexeme.takeWhile_append_of_stop (hdigits n) (hstop _), List.reverse_inj] at hnumber
  have hfront := congrArg (List.dropWhile Char.isDigit) hreverse
  rw [Lexeme.dropWhile_append_of_stop (hdigits m) (hstop _),
    Lexeme.dropWhile_append_of_stop (hdigits n) (hstop _)] at hfront
  constructor
  · simpa using hfront
  · rw [← Nat.ofDigitChars_ten_toDigits (n := m), ← Nat.ofDigitChars_ten_toDigits (n := n)]
    exact congrArg (Nat.ofDigitChars 10 · 0) hnumber

theorem subqueryAlias_toList (n : Nat) :
    (subqueryAlias n).toList = "subq".toList ++ '_' :: Decimal.digitsOf n := by
  rw [subqueryAlias, String.toList_append, Nat.toString_eq_repr, Nat.toList_repr]
  rfl

theorem tableAlias_toList (model : String) (n : Nat) :
    (tableAlias model n).toList =
      (model.toList ++ "_src".toList) ++ '_' :: Decimal.digitsOf n := by
  rw [tableAlias, String.toList_append, String.toList_append, Nat.toString_eq_repr,
    Nat.toList_repr, List.append_assoc, List.append_assoc]
  rfl

/-- Also when the name of one model ends like an alias itself. -/
theorem number_eq_of_tableAlias_eq
    {model model' : String} {m n : Nat} (h : tableAlias model m = tableAlias model' n) :
    m = n := by
  have hchars := congrArg String.toList h
  rw [tableAlias_toList, tableAlias_toList] at hchars
  exact (numbered_inj hchars).2

theorem tableAlias_ne_subqueryAlias (model : String) (m n : Nat) :
    tableAlias model m ≠ subqueryAlias n := by
  intro h
  have hchars := congrArg String.toList h
  rw [tableAlias_toList, subqueryAlias_toList] at hchars
  have hfront := congrArg List.reverse (numbered_inj hchars).1
  simp at hfront

end AliasSupply

/-! ## Calls -/

/-- A call of a planner on nodes that may come from anywhere. -/
inductive StageCall where
  | read (model : Model) (elements : List ElementRef)
  | join (primary : Plan) (targets : List JoinTarget)
  | aggregate (input : Plan) (keys : GroupKeys) (measures : List MeasureTerm)
  | metrics (input : Plan) (terms : List MetricTerm)

/-- The alias of the table that a stage reads. -/
def Plan.tableAlias? : Plan → Option String
  | read _ _ _ tableAlias _ => some tableAlias
  | _ => none

namespace StageCall

def answer (supply : AliasSupply) : StageCall → Except Failure Plan × AliasSupply
  | read model elements => model.read elements supply
  | join primary targets => primary.joinTargets targets supply
  | aggregate input keys measures => input.aggregateBy keys measures supply
  | metrics input terms => input.computeMetrics terms supply

/-- A join of nothing returns the node it was given. -/
def returnsInput : StageCall → Bool
  | join _ [] => true
  | _ => false

/-- The node that the call newly builds, none if it fails. -/
def built? (supply : AliasSupply) (call : StageCall) : Option Plan :=
  if call.returnsInput then none else (call.answer supply).1.toOption

/-- The nodes that the calls newly build one after the other, the oldest first. -/
def builtAll : AliasSupply → List StageCall → List Plan
  | _, [] => []
  | supply, call :: rest =>
    (call.built? supply).toList ++ builtAll (call.answer supply).2 rest

variable {supply : AliasSupply} {call : StageCall} {node : Plan}

/-! ## One call -/

theorem tables_le_answer (supply : AliasSupply) (call : StageCall) :
    supply.tables ≤ (call.answer supply).2.tables := by
  cases call with
  | read model elements =>
      simp only [answer, Model.read, AliasSupply.table, AliasSupply.subquery]
      split
      next => exact le_rfl
      next => split <;> exact Nat.le_succ _
  | join primary targets =>
      simp only [answer, Plan.joinTargets, AliasSupply.subquery]
      split
      next => exact le_rfl
      next => split <;> exact le_rfl
  | aggregate input keys measures =>
      simp only [answer, Plan.aggregateBy, AliasSupply.subquery]
      split <;> exact le_rfl
  | metrics input terms =>
      simp only [answer, Plan.computeMetrics, AliasSupply.subquery]
      split <;> exact le_rfl

/-- A call that builds nothing takes no node alias. -/
theorem subqueries_of_built?_eq_none (h : call.built? supply = none) :
    (call.answer supply).2.subqueries = supply.subqueries := by
  rcases hanswer : call.answer supply with ⟨outcome, supply'⟩
  cases outcome with
  | error failure =>
      cases call with
      | read model elements => exact Model.read_eq_error hanswer
      | join primary targets => rw [Plan.joinTargets_eq_error hanswer]
      | aggregate input keys measures => rw [Plan.aggregateBy_eq_error hanswer]
      | metrics input terms => rw [Plan.computeMetrics_eq_error hanswer]
  | ok node =>
      have hinput : call.returnsInput = true := by
        by_contra hnew
        simp [built?, hnew, hanswer, Except.toOption] at h
      unfold returnsInput at hinput
      split at hinput
      next =>
        cases hanswer
        rfl
      next => cases hinput

/-- A call that builds a node takes the next node alias, and a read the next table alias. -/
theorem built?_eq_some (h : call.built? supply = some node) :
    node.aliasName = AliasSupply.subqueryAlias supply.subqueries ∧
      (call.answer supply).2.subqueries = supply.subqueries + 1 ∧
      ∀ tableAlias ∈ node.tableAlias?,
        (∃ model, tableAlias = AliasSupply.tableAlias model supply.tables) ∧
          (call.answer supply).2.tables = supply.tables + 1 := by
  have hnew : call.returnsInput = false := by
    by_contra hinput
    simp [built?, hinput] at h
  rcases hanswer : call.answer supply with ⟨outcome, supply'⟩
  simp only [built?, hnew, hanswer, Bool.false_eq_true, if_false] at h
  cases outcome with
  | error failure => cases h
  | ok other =>
      cases h
      cases call with
      | read model elements =>
          obtain ⟨-, columns, -, rfl, rfl⟩ := Model.read_eq_ok.mp hanswer
          refine ⟨rfl, rfl, ?_⟩
          intro tableAlias htable
          cases htable
          exact ⟨⟨model.name, rfl⟩, rfl⟩
      | join primary targets =>
          rcases Plan.joinTargets_eq_ok hanswer with ⟨rfl, -, -⟩ | ⟨joined, -, -, -, rfl, rfl⟩
          · cases hnew
          · exact ⟨rfl, rfl, nofun⟩
      | aggregate input keys measures =>
          obtain ⟨columns, -, rfl, rfl⟩ := Plan.aggregateBy_eq_ok hanswer
          exact ⟨rfl, rfl, nofun⟩
      | metrics input terms =>
          obtain ⟨keys, columns, -, rfl, rfl⟩ := Plan.computeMetrics_eq_ok hanswer
          exact ⟨rfl, rfl, nofun⟩

/-! ## Runs of calls -/

/-- Nodes are numbered from the number of the supply on, and failures leave no gap. -/
theorem builtAll_aliases (supply : AliasSupply) (calls : List StageCall) :
    (builtAll supply calls).map (·.aliasName) =
      (List.range' supply.subqueries (builtAll supply calls).length).map
        AliasSupply.subqueryAlias := by
  induction calls generalizing supply with
  | nil => rfl
  | cons call rest ih =>
      have hrest := ih (call.answer supply).2
      rw [builtAll]
      cases hbuilt : call.built? supply with
      | none =>
          rw [subqueries_of_built?_eq_none hbuilt] at hrest
          simpa using hrest
      | some node =>
          obtain ⟨halias, hnext, -⟩ := built?_eq_some hbuilt
          rw [hnext] at hrest
          simpa [List.range'_succ, halias] using hrest

/-- The table aliases of a run have numbers that the supply has not given yet. -/
theorem exists_number_of_mem_builtAll
    {calls : List StageCall} {tableAlias : String}
    (h : tableAlias ∈ (builtAll supply calls).filterMap Plan.tableAlias?) :
    ∃ model n, supply.tables ≤ n ∧ tableAlias = AliasSupply.tableAlias model n := by
  induction calls generalizing supply with
  | nil => cases h
  | cons call rest ih =>
      rw [builtAll, List.filterMap_append, List.mem_append] at h
      rcases h with hfirst | hrest
      · obtain ⟨node, hnode, htable⟩ := List.mem_filterMap.mp hfirst
        obtain ⟨-, -, htables⟩ := built?_eq_some (Option.mem_toList.mp hnode)
        obtain ⟨⟨model, hmodel⟩, -⟩ := htables tableAlias htable
        exact ⟨model, supply.tables, le_rfl, hmodel⟩
      · obtain ⟨model, n, hle, heq⟩ := ih hrest
        exact ⟨model, n, (tables_le_answer supply call).trans hle, heq⟩

theorem nodup_tableAliases (supply : AliasSupply) (calls : List StageCall) :
    ((builtAll supply calls).filterMap Plan.tableAlias?).Nodup := by
  induction calls generalizing supply with
  | nil => exact List.nodup_nil
  | cons call rest ih =>
      have hrest := ih (call.answer supply).2
      rw [builtAll]
      cases hbuilt : call.built? supply with
      | none => simpa using hrest
      | some node =>
          obtain ⟨-, -, htables⟩ := built?_eq_some hbuilt
          cases htable : node.tableAlias? with
          | none => simpa [htable] using hrest
          | some tableAlias =>
              obtain ⟨⟨model, hmodel⟩, hnext⟩ := htables tableAlias htable
              have hfresh : tableAlias ∉
                  (builtAll (call.answer supply).2 rest).filterMap Plan.tableAlias? := by
                intro hmem
                obtain ⟨model', n, hle, heq⟩ := exists_number_of_mem_builtAll hmem
                have hnumber := AliasSupply.number_eq_of_tableAlias_eq (hmodel.symm.trans heq)
                omega
              simpa [htable] using And.intro hfresh hrest

/-- Whichever calls fail, the node built after `k` others has the alias of number `k`; so the aliases of nodes
differ, those of tables differ whatever their models are called, and no table has the alias of a node. -/
theorem builtAll_accounts (calls : List StageCall) :
    (builtAll {} calls).map (·.aliasName) =
        (List.range (builtAll {} calls).length).map AliasSupply.subqueryAlias ∧
      ((builtAll {} calls).map (·.aliasName)).Nodup ∧
      ((builtAll {} calls).filterMap Plan.tableAlias?).Nodup ∧
      List.Disjoint ((builtAll {} calls).filterMap Plan.tableAlias?)
        ((builtAll {} calls).map (·.aliasName)) := by
  have haliases : (builtAll {} calls).map (·.aliasName) =
      (List.range (builtAll {} calls).length).map AliasSupply.subqueryAlias := by
    rw [builtAll_aliases, List.range_eq_range']
  refine ⟨haliases, ?_, nodup_tableAliases {} calls, ?_⟩
  · rw [haliases]
    exact List.nodup_range.map AliasSupply.subqueryAlias_injective
  · intro name htable hnode
    obtain ⟨model, m, -, rfl⟩ := exists_number_of_mem_builtAll htable
    rw [haliases] at hnode
    obtain ⟨n, -, heq⟩ := List.mem_map.mp hnode
    exact AliasSupply.tableAlias_ne_subqueryAlias model m n heq.symm

-- the read that fails takes a table alias and no node alias
example :
    let built := builtAll {} [
      .read Sample.bookings [⟨"amount", none⟩], .read Sample.listings [⟨"city", none⟩],
      .read Sample.listings [⟨"country", none⟩]]
    built.map (·.aliasName) = ["subq_0", "subq_1"] ∧
      built.filterMap Plan.tableAlias? = ["bookings_src_0", "listings_src_2"] := by
  decide +kernel

end StageCall

end MetricSql
