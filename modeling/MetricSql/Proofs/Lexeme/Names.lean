import MetricSql.Proofs.Lexeme.Layout
import MetricSql.Proofs.Plan.Formed

/-!
# Names stay in their place

Whatever characters a name is made of, the text that is written for a plan is scanned into the tokens of the
plan: no name ends its quotes early, opens a comment or a string, or runs into what stands next to it.  A name
is written bare only where it is a lower-case word that is not reserved.
-/

namespace MetricSql

namespace Text

theorem length_le_length_doubled (mark : Char) (text : List Char) :
    text.length ≤ (doubled mark text).length := by
  induction text with
  | nil => simp [doubled]
  | cons c rest ih =>
      by_cases hmark : c = mark
      · simp only [doubled, if_pos hmark, List.length_cons]
        omega
      · simp only [doubled, if_neg hmark, List.length_cons]
        omega

theorem quoted_ne_self (opening closing : Char) (text : String) :
    quoted opening closing text ≠ text := by
  intro hquoted
  have hlength := congrArg (fun s => s.toList.length) hquoted
  have hdoubled := length_le_length_doubled closing text.toList
  simp only [quoted, String.toList_ofList, List.length_cons, List.length_append,
    List.length_nil] at hlength
  omega

end Text

namespace Profile

/-- The names that are written as they stand are those that need no quotes. -/
theorem quoteIdentifier_eq_self_iff (profile : Profile) (name : String) :
    profile.quoteIdentifier name = name ↔ profile.writesBare name = true := by
  rw [quoteIdentifier_eq]
  by_cases hbare : profile.writesBare name = true
  · simp [hbare]
  · have hquoted : profile.dialect.quoteIdentifier name ≠ name :=
      Text.quoted_ne_self _ _ name
    simp [hbare, hquoted]

theorem identifier_eq_ite (profile : Profile) (name : String) :
    profile.identifier name =
      if profile.quoteIdentifier name = name then .word name else .name name := by
  simp only [identifier, quoteIdentifier_eq_self_iff]

theorem not_isReserved_of_writesBare
    {profile : Profile} {name : String} (h : profile.writesBare name = true) :
    Text.isBare name = true ∧ isReserved name = false := by
  simp only [writesBare, Bool.and_eq_true, Bool.not_eq_true'] at h
  exact h.2

end Profile

/-- Without raw parts, everything in a plan that planners have built is written in the tokens of the
dialect. -/
theorem Session.run_isWritten
    {calls : List PlannerCall} {plan : Plan} (hplan : plan ∈ (run calls).nodes)
    (hraw : ∀ e ∈ plan.exprs, ∀ part ∈ e.parts, part.isRaw = false) :
    ∀ stage ∈ plan.stages, ∀ column ∈ stage.columns, ∀ part ∈ column.expr.parts,
      part.isWritten = true := by
  intro stage hstage column hcolumn part hpart
  have hexpr : column.expr ∈ plan.exprs :=
    Plan.mem_exprs_iff.mpr ⟨stage, hstage, column, hcolumn, rfl⟩
  have hspelled := (run_wellFormed calls plan hplan stage hstage).spelled column hcolumn
  exact (hspelled part hpart (hraw _ hexpr part hpart)).1

/-- The SQL of a plan without raw parts is scanned into the lexemes of its tokens.  Each identifier carries the
name it was written for, and one that is written bare is a lower-case word that is not reserved. -/
theorem Session.run_scan
    {calls : List PlannerCall} {plan : Plan} (hplan : plan ∈ (run calls).nodes)
    (hraw : ∀ e ∈ plan.exprs, ∀ part ∈ e.parts, part.isRaw = false)
    {profile : Profile} {sql : String} (hrender : profile.render plan = .ok sql) :
    Lexeme.scan profile.dialect sql.toList =
        some ((plan.query.tokens profile).flatMap (Token.lexemes profile)) ∧
      (∀ text, Token.raw text ∉ plan.query.tokens profile) ∧
      ∀ name, profile.identifier name =
          (if profile.quoteIdentifier name = name then .word name else .name name) ∧
        (profile.quoteIdentifier name = name →
          Text.isBare name = true ∧ isReserved name = false) := by
  have hwritten := run_isWritten hplan hraw
  refine ⟨Plan.scan_text hwritten (Profile.text_of_render hrender), ?_, ?_⟩
  · intro text htext
    have htoken := (Plan.spaced_query plan hwritten 0).written _ htext
    cases htoken
  · intro name
    refine ⟨profile.identifier_eq_ite name, fun hbare => ?_⟩
    rw [profile.quoteIdentifier_eq_self_iff] at hbare
    exact Profile.not_isReserved_of_writesBare hbare

namespace Sample

/-- A model whose names hold quotes, marks of comments, line ends and reserved words. -/
def hostile : Model where
  name := "o'rders\n; DROP TABLE t --"
  table := { schema := some "d\"w", name := "select" }
  entities := [
    { name := "]; --", expression := some "id", kind := .primary, dataType := .int }]
  dimensions := [
    { name := "/*day\r\n", expression := some "day", kind := .time, dataType := .date }]
  measures := [{ name := "\"n\"", aggregation := .sum, source := .column "n" }]

def hostileCalls : List PlannerCall := [
  .read hostile [⟨"]; --", none⟩, ⟨"/*day\r\n", none⟩, ⟨"\"n\"", none⟩]]

/-- The alias of the table takes over the name of the model. -/
def hostileLexemes : List Lexeme := [
  .word "SELECT",
  .name "o'rders\n; DROP TABLE t --_src_0", .symbol ".", .word "id", .word "AS",
  .name "]; --", .symbol ",",
  .name "o'rders\n; DROP TABLE t --_src_0", .symbol ".", .word "day", .word "AS",
  .name "/*day\r\n", .symbol ",",
  .name "o'rders\n; DROP TABLE t --_src_0", .symbol ".", .word "n", .word "AS",
  .name "\"n\"",
  .word "FROM", .name "d\"w", .symbol ".", .name "select",
  .name "o'rders\n; DROP TABLE t --_src_0"]

theorem hostile_scan : ∃ plan ∈ (Session.run hostileCalls).nodes,
    (∀ e ∈ plan.exprs, ∀ part ∈ e.parts, part.isRaw = false) ∧
    ∃ sql, Profile.render {} plan = .ok sql ∧
      Lexeme.scan .duckdb sql.toList = some hostileLexemes := by
  have hread : ∃ plan ∈ (Session.run hostileCalls).nodes,
      (∀ e ∈ plan.exprs, ∀ part ∈ e.parts, part.isRaw = false) ∧
      (Profile.render {} plan).isOk ∧
      (plan.query.tokens {}).flatMap (Token.lexemes {}) = hostileLexemes := by
    decide +kernel
  obtain ⟨plan, hplan, hraw, hok, hlexemes⟩ := hread
  cases hrender : Profile.render {} plan with
  | error e => simp [hrender, Except.isOk, Except.toBool] at hok
  | ok sql =>
      have hscan := (Session.run_scan hplan hraw hrender).1
      rw [hlexemes] at hscan
      exact ⟨plan, hplan, hraw, sql, hrender, hscan⟩

end Sample

end MetricSql
