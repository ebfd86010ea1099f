import MetricSql.Proofs.Statement.Operand
import MetricSql.Query.Basic
import MetricSql.Statement.Shape

/-!
# Reading clauses

A query is read clause by clause: the projections up to `FROM`, the relations with
their joins, and the group keys.  What is said of a clause is how it is read before
anything that can follow it, and what it adds to the shapes of the query.
-/

namespace MetricSql

namespace Statement

/-! ## Lists -/

/-- Entries with a separator between them. -/
def separated (separator : Lexeme) : List Input → Input
  | [] => []
  | first :: rest => first ++ rest.flatMap (separator :: ·)

theorem separated_cons_cons (separator : Lexeme) (first second : Input)
    (rest : List Input) : separated separator (first :: second :: rest) =
      first ++ separator :: separated separator (second :: rest) := by
  simp [separated]

theorem length_le_separated (separator : Lexeme) {entries : List Input}
    (h : ∀ entry ∈ entries, ∃ first more, entry = first :: more ∧ first.opensTerm = true) :
    entries.length ≤ (separated separator entries).length := by
  induction entries with
  | nil => simp
  | cons first rest ih =>
      have hfirst : 1 ≤ first.length := by
        obtain ⟨lexeme, more, rfl, -⟩ := h first List.mem_cons_self
        simp
      have hrest := ih fun entry hentry => h entry (List.mem_cons_of_mem _ hentry)
      cases rest with
      | nil => simpa [separated] using hfirst
      | cons second rest =>
          rw [separated_cons_cons]
          simp only [List.length_cons, List.length_append] at hrest ⊢
          omega

theorem length_entry_le_separated (separator : Lexeme) {entries : List Input}
    {entry : Input} (h : entry ∈ entries) :
    entry.length ≤ (separated separator entries).length := by
  induction entries with
  | nil => cases h
  | cons first rest ih =>
      cases rest with
      | nil =>
          have heq : entry = first := by simpa using h
          simp [separated, heq]
      | cons second rest =>
          rw [separated_cons_cons]
          simp only [List.length_cons, List.length_append]
          rcases List.mem_cons.mp h with rfl | h
          · omega
          · have hle := ih h
            omega

/-- The first lexeme of the list is that of its first entry. -/
theorem separated_opens (separator : Lexeme) {entries : List Input} (hne : entries ≠ [])
    (h : ∀ entry ∈ entries, ∃ first more, entry = first :: more ∧ first.opensTerm = true) :
    ∃ first more, separated separator entries = first :: more ∧ first.opensTerm = true := by
  cases entries with
  | nil => exact absurd rfl hne
  | cons entry rest =>
      obtain ⟨first, more, rfl, hfirst⟩ := h entry List.mem_cons_self
      exact ⟨first, _, rfl, hfirst⟩

/-- A list is read entry by entry, if the entries are read before a comma and
before what follows the list. -/
theorem commaList?_separated {α β : Type} {entry : Input → Option (α × Input)}
    {text : β → Input} {Reads : β → α → Prop} {Ends : Input → Prop} {items : List β}
    (hitems : ∀ item ∈ items, ∀ rest, Ends rest →
      ∃ value, entry (text item ++ rest) = some (value, rest) ∧ Reads item value)
    (hne : items ≠ []) (hcomma : ∀ rest, Ends (.symbol "," :: rest)) {rest : Input}
    (hrest : Ends rest) (hend : symbol? "," rest = none) :
    ∀ fuel, items.length ≤ fuel →
      ∃ values, commaList? entry fuel (separated (.symbol ",") (items.map text) ++ rest) =
        some (values, rest) ∧ List.Forall₂ Reads items values := by
  induction items with
  | nil => exact absurd rfl hne
  | cons first others ih =>
      intro fuel hfuel
      obtain ⟨fuel, rfl⟩ : ∃ less, fuel = less + 1 :=
        ⟨fuel - 1, by simp only [List.length_cons] at hfuel; omega⟩
      cases others with
      | nil =>
          obtain ⟨value, hvalue, hreads⟩ := hitems first List.mem_cons_self rest hrest
          refine ⟨[value], ?_, .cons hreads .nil⟩
          simp only [List.map_cons, List.map_nil, separated, List.flatMap_nil,
            List.append_nil, commaList?, hvalue, Option.bind_eq_bind, Option.bind_some]
          split
          next => simp [symbol?] at hend
          next => rfl
      | cons second others =>
          obtain ⟨values, hvalues, hothers⟩ := ih
            (fun item hitem => hitems item (List.mem_cons_of_mem _ hitem)) (by simp) fuel
            (by simpa using hfuel)
          obtain ⟨value, hvalue, hreads⟩ := hitems first List.mem_cons_self
            (.symbol "," :: (separated (.symbol ",") ((second :: others).map text) ++ rest))
            (hcomma _)
          refine ⟨value :: values, ?_, .cons hreads hothers⟩
          rw [List.map_cons] at hvalue hvalues ⊢
          rw [List.map_cons, separated_cons_cons, List.append_assoc, List.cons_append,
            commaList?, hvalue]
          simp [hvalues]

/-- The expression is read as a column of the name. -/
structure ReadsColumn (lexemes : Input) (name : String) : Prop where
  opens : ∃ first more, lexemes = first :: more ∧ first.opensTerm = true
  starless : ∀ {rest : Input}, Follows rest → starPath? (lexemes ++ rest) = none
  reads : ∀ {fuel : Nat} {rest : Input}, 8 * lexemes.length ≤ fuel → Stops rest →
    ∃ term, term? fuel 0 (lexemes ++ rest) = some (term, rest) ∧
      term.columnName? = some name

/-- The input is at its end or at a closing parenthesis. -/
def Closes (rest : Input) : Prop := ∀ first ∈ rest.head?, first = .symbol ")"

/-- The relation is read and adds the shapes. -/
def ReadsFactor (lexemes : Input) (shapes : List Shape) : Prop :=
  ∀ (fuel : Nat) (rest : Input), 8 * lexemes.length ≤ fuel →
    ∃ factor, factor? fuel (lexemes ++ rest) = some (factor, rest) ∧ factor.shapes = shapes

theorem Names.keyword? {name keyword : String} {lexeme : Lexeme} (h : Names name lexeme)
    (hkeyword : keyword ∈ reservedWords) (rest : Input) :
    keyword? keyword (lexeme :: rest) = none := by
  cases lexeme with
  | word text => simp [Statement.keyword?, h.ne_keyword hkeyword]
  | _ => rfl

theorem Names.aliasName? {name : String} {lexeme : Lexeme} (h : Names name lexeme)
    (rest : Input) : aliasName? (lexeme :: rest) = some (some name, rest) := by
  rw [Statement.aliasName?, h.keyword? (by decide), h.identifier?]

theorem Names.symbol? {name : String} {lexeme : Lexeme} (h : Names name lexeme)
    (text : String) (rest : Input) : symbol? text (lexeme :: rest) = none := by
  cases lexeme with
  | symbol given => cases h
  | _ => rfl

/-- The words before a joined relation. -/
def joinWords : JoinKind → Input
  | .inner => [.word "INNER", .word "JOIN"]
  | .leftOuter => [.word "LEFT", .word "OUTER", .word "JOIN"]

/-- Joined relations that are read and add the shapes. -/
inductive Joins : Input → List Shape → Prop
  | nil : Joins [] []
  | cons (kind : JoinKind) {relation condition others : Input} {shapes more : List Shape}
      (hrelation : ReadsFactor relation shapes)
      (hcondition : condition = [] ∨
        ∃ test, condition = .word "ON" :: test ∧ Sequence test)
      (hothers : Joins others more) :
      Joins (joinWords kind ++ (relation ++ (condition ++ others))) (shapes ++ more)

/-- What can follow the joins of a query: group keys or its end. -/
def EndsJoins (rest : Input) : Prop :=
  ∀ first ∈ rest.head?, first ∈ [.symbol ")", .word "GROUP"]

/-- What can follow a joined relation: another one, or the end of the joins. -/
def EndsJoin (rest : Input) : Prop :=
  ∀ first ∈ rest.head?, first ∈ [.symbol ")", .word "GROUP", .word "INNER", .word "LEFT"]

theorem EndsJoins.endsJoin {rest : Input} (h : EndsJoins rest) : EndsJoin rest := by
  intro first hfirst
  have hmem := h first hfirst
  simp only [List.mem_cons, List.not_mem_nil, or_false] at hmem ⊢
  rcases hmem with h | h <;> simp [h]

theorem Joins.endsJoin {lexemes rest : Input} {shapes : List Shape}
    (h : Joins lexemes shapes) (hrest : EndsJoins rest) : EndsJoin (lexemes ++ rest) := by
  cases h with
  | nil => exact hrest.endsJoin
  | cons kind => cases kind <;> simp [EndsJoin, joinWords]

theorem EndsJoin.stops {rest : Input} (h : EndsJoin rest) : Stops rest := by
  intro first hfirst
  have hmem := h first hfirst
  simp only [List.mem_cons, List.not_mem_nil, or_false] at hmem
  rcases hmem with rfl | rfl | rfl | rfl <;> rfl

theorem EndsJoin.keyword? {rest : Input} (h : EndsJoin rest) {keyword : String}
    (hkeyword : keyword = "using" ∨ keyword = "on") : keyword? keyword rest = none := by
  cases rest with
  | nil => rfl
  | cons first rest =>
      have hmem := h first rfl
      simp only [List.mem_cons, List.not_mem_nil, or_false] at hmem
      rcases hkeyword with rfl | rfl <;> rcases hmem with rfl | rfl | rfl | rfl <;> rfl

theorem joinCondition?_reads {condition rest : Input}
    (h : condition = [] ∨ ∃ test, condition = .word "ON" :: test ∧ Sequence test)
    (hrest : EndsJoin rest) {fuel : Nat} (hfuel : 8 * condition.length ≤ fuel) :
    joinCondition? fuel (condition ++ rest) = some rest := by
  rcases h with rfl | ⟨test, rfl, htest⟩
  · rw [List.nil_append, joinCondition?, hrest.keyword? (.inl rfl), optionalTerm?,
      hrest.keyword? (.inr rfl)]
    rfl
  · simp only [List.length_cons] at hfuel
    obtain ⟨term, hterm⟩ := htest.reads hrest.stops (show 8 * test.length ≤ fuel by omega)
    have hcondition : joinCondition? fuel (.word "ON" :: (test ++ rest)) =
        ((term? fuel 0 (test ++ rest)).map fun test => (some test.1, test.2)).map Prod.snd :=
      rfl
    rw [List.cons_append, hcondition, hterm]
    rfl

theorem startsJoin_joinWords (kind : JoinKind) (rest : Input) :
    startsJoin (joinWords kind ++ rest) = true := by
  cases kind <;> rfl

theorem joinKeywords?_joinWords (kind : JoinKind) (rest : Input) :
    joinKeywords? (joinWords kind ++ rest) = some rest := by
  cases kind <;> rfl

theorem EndsJoins.startsJoin {rest : Input} (h : EndsJoins rest) :
    startsJoin rest = false := by
  cases rest with
  | nil => rfl
  | cons first rest =>
      have hmem := h first rfl
      simp only [List.mem_cons, List.not_mem_nil, or_false] at hmem
      rcases hmem with rfl | rfl <;> rfl

theorem Joins.joins? {lexemes rest : Input} {shapes : List Shape} (h : Joins lexemes shapes)
    (hrest : EndsJoins rest) : ∀ fuel, 8 * lexemes.length < fuel →
      ∃ factors, joins? fuel (lexemes ++ rest) = some (factors, rest) ∧
        factorShapes factors = shapes := by
  induction h with
  | nil =>
      intro fuel hfuel
      obtain ⟨fuel, rfl⟩ : ∃ less, fuel = less + 1 := ⟨fuel - 1, by omega⟩
      refine ⟨[], ?_, rfl⟩
      simp [Statement.joins?, hrest.startsJoin]
  | @cons kind relation condition others shapes more hrelation hcondition hothers ih =>
      intro fuel hfuel
      have hkind : 1 ≤ (joinWords kind).length := by cases kind <;> decide
      simp only [List.length_append] at hfuel
      obtain ⟨fuel, rfl⟩ : ∃ less, fuel = less + 1 := ⟨fuel - 1, by omega⟩
      obtain ⟨factor, hfactor, hshapes⟩ :=
        hrelation fuel (condition ++ (others ++ rest)) (by omega)
      have hon := joinCondition?_reads hcondition (hothers.endsJoin hrest)
        (show _ ≤ fuel by omega)
      obtain ⟨factors, hfactors, hmore⟩ := ih fuel (by omega)
      refine ⟨factor :: factors, ?_, by rw [factorShapes, hshapes, hmore]⟩
      simp only [List.append_assoc]
      rw [Statement.joins?, startsJoin_joinWords, joinKeywords?_joinWords]
      simp [hfactor, hon, hfactors]

/-! ## Group keys -/

/-- Nothing, or keys that are read as columns of the names. -/
def GroupClause (lexemes : Input) (names : List String) : Prop :=
  lexemes = [] ∧ names = [] ∨
    ∃ keys : List (Input × String), keys ≠ [] ∧ (∀ key ∈ keys, ReadsColumn key.1 key.2) ∧
      lexemes = .word "GROUP" :: .word "BY" :: separated (.symbol ",") (keys.map Prod.fst) ∧
      names = keys.map Prod.snd

theorem Closes.stops {rest : Input} (h : Closes rest) : Stops rest := by
  intro first hfirst
  rw [h first hfirst]
  rfl

theorem Closes.keyword? {rest : Input} (h : Closes rest) (keyword : String) :
    keyword? keyword rest = none := by
  cases rest with
  | nil => rfl
  | cons first rest =>
      rw [h first rfl]
      rfl

theorem Closes.symbol?_comma {rest : Input} (h : Closes rest) : symbol? "," rest = none := by
  cases rest with
  | nil => rfl
  | cons first rest =>
      rw [h first rfl]
      rfl

theorem filterMap_eq_map_of_forall₂ {α β γ : Type} {f : β → Option γ} {g : α → γ}
    {xs : List α} {ys : List β} (h : List.Forall₂ (fun x y => f y = some (g x)) xs ys) :
    ys.filterMap f = xs.map g := by
  induction h with
  | nil => rfl
  | cons hxy _ ih => simp [hxy, ih]

theorem GroupClause.groupBy? {lexemes rest : Input} {names : List String}
    (h : GroupClause lexemes names) (hrest : Closes rest) {fuel : Nat}
    (hfuel : 8 * lexemes.length ≤ fuel) :
    ∃ group, groupBy? fuel (lexemes ++ rest) = some (group, rest) ∧
      group.columnNames = names := by
  rcases h with ⟨rfl, rfl⟩ | ⟨keys, hne, hkeys, rfl, rfl⟩
  · refine ⟨.terms [], ?_, rfl⟩
    simp [Statement.groupBy?, byClause?, hrest.keyword?]
  · simp only [List.length_cons] at hfuel
    have hopens : ∀ entry ∈ keys.map Prod.fst,
        ∃ first more, entry = first :: more ∧ first.opensTerm = true := by
      intro entry hentry
      obtain ⟨key, hkey, rfl⟩ := List.mem_map.mp hentry
      exact (hkeys key hkey).opens
    have hcount := length_le_separated (.symbol ",") hopens
    rw [List.length_map] at hcount
    have hreads : ∀ key ∈ keys, ∀ rest, Stops rest →
        ∃ term, term? fuel 0 (key.1 ++ rest) = some (term, rest) ∧
          term.columnName? = some key.2 := by
      intro key hkey rest hstops
      have hle := length_entry_le_separated (.symbol ",") (List.mem_map_of_mem (f := Prod.fst) hkey)
      exact (hkeys key hkey).reads (by omega) hstops
    obtain ⟨terms, hterms, hnames⟩ := commaList?_separated hreads hne
      (fun rest => stops_cons rfl rest) hrest.stops hrest.symbol?_comma fuel (by omega)
    obtain ⟨first, more, hfirst, hopen⟩ := separated_opens (.symbol ",") (by simpa using hne)
      hopens
    have hall : keyword? "all" (separated (.symbol ",") (keys.map Prod.fst) ++ rest) = none := by
      rw [hfirst]
      exact keyword?_of_opensTerm hopen (.inr rfl) _
    have hby : byClause? "group" (.word "GROUP" :: .word "BY" ::
        (separated (.symbol ",") (keys.map Prod.fst) ++ rest)) =
        some (separated (.symbol ",") (keys.map Prod.fst) ++ rest) := rfl
    refine ⟨.terms terms, ?_, filterMap_eq_map_of_forall₂ hnames⟩
    simp only [List.cons_append, Statement.groupBy?, hby, hall, hterms, Option.map_some]

/-! ## Queries -/

theorem Closes.combine? {rest : Input} (h : Closes rest) (fuel : Nat) (body : Body) :
    combine? (fuel + 1) body rest = some (body, rest) := by
  rw [Statement.combine?]
  simp [setOperation?, h.keyword?]

theorem Closes.tail? {rest : Input} (h : Closes rest) (fuel : Nat) :
    tail? fuel rest = some rest := by
  simp [Statement.tail?, byClause?, optionalTerm?, h.keyword?]

theorem Closes.optionalTerm? {rest : Input} (h : Closes rest) (fuel : Nat)
    (keyword : String) : optionalTerm? fuel keyword rest = some (none, rest) := by
  simp [Statement.optionalTerm?, h.keyword?]

end Statement

end MetricSql
