import MetricSql.Proofs.Statement.Term

/-!
# Reading operands

Literals, names, calls, casts, case distinctions and expressions in parentheses are
operands, whatever stands behind them.
-/

namespace MetricSql

namespace Statement

/-! ## The front of an operand -/

theorem Follows.symbol? {rest : Input} (h : Follows rest) {text : String}
    (htext : text = "(" ∨ text = ".") : symbol? text rest = none := by
  cases rest with
  | nil => rfl
  | cons first rest =>
      have hfirst := h first rfl
      cases first with
      | symbol given =>
          simp only [Lexeme.extendsOperand, Bool.or_eq_false_iff, beq_eq_false_iff_ne] at hfirst
          have hne : given ≠ text := by
            rcases htext with rfl | rfl
            · exact hfirst.1
            · exact hfirst.2
          simp [Statement.symbol?, hne]
      | _ => rfl

theorem Follows.keyword?_within {rest : Input} (h : Follows rest) :
    keyword? "within" rest = none := by
  cases rest with
  | nil => rfl
  | cons first rest =>
      have hfirst := h first rfl
      cases first with
      | word text =>
          have hne : lowerAscii text ≠ "within" := by
            simpa [Lexeme.extendsOperand] using hfirst
          simp [Statement.keyword?, hne]
      | _ => rfl

theorem symbol?_of_opensTerm {first : Lexeme} (hfirst : first.opensTerm = true)
    {text : String} (htext : text ≠ "-" ∧ text ≠ "(") (rest : Input) :
    symbol? text (first :: rest) = none := by
  cases first with
  | symbol given =>
      have hne : given ≠ text := by
        rintro rfl
        simp [Lexeme.opensTerm, htext] at hfirst
      simp [symbol?, hne]
  | _ => rfl

theorem keyword?_of_opensTerm {first : Lexeme} (hfirst : first.opensTerm = true)
    {keyword : String} (hkeyword : keyword = "distinct" ∨ keyword = "all") (rest : Input) :
    keyword? keyword (first :: rest) = none := by
  cases first with
  | word text =>
      have hne : lowerAscii text ≠ keyword := by
        rintro rfl
        rcases hkeyword with heq | heq <;> simp [Lexeme.opensTerm, heq] at hfirst
      simp [keyword?, hne]
  | _ => rfl

/-- Only a star makes a projection of all columns. -/
theorem starPath?_cons {first : Lexeme} {rest : Input} (hfirst : first.opensTerm = true)
    (hrest : symbol? "." rest = none) : starPath? (first :: rest) = none := by
  rw [starPath?.eq_def]
  split
  next heq =>
    cases heq
    cases hfirst
  next heq =>
    cases heq
    cases hfirst
  next heq =>
    cases heq
    simp [symbol?] at hrest
  next heq =>
    cases heq
    simp [symbol?] at hrest
  next => rfl

/-- What is read as an operand, and whose second lexeme is no dot, is one. -/
theorem Operand.ofReads {first : Lexeme} {more : Input}
    (hfirst : first.opensTerm = true)
    (hmore : symbol? "." more = none)
    (hreads : ∀ (fuel : Nat) {rest : Input}, 8 * more.length + 7 ≤ fuel → Follows rest →
      ∃ term, operand? fuel (first :: (more ++ rest)) = some (term, rest)) :
    Operand (first :: more) where
  reads fuel rest hfuel hrest := by
    simp only [List.length_cons] at hfuel
    exact hreads fuel (by omega) hrest
  starless {rest} hrest := by
    apply starPath?_cons hfirst
    cases more with
    | nil => exact hrest.symbol? (.inr rfl)
    | cons second more =>
        cases second with
        | symbol text => simpa [symbol?] using hmore
        | _ => rfl
  opens := ⟨first, more, rfl, hfirst⟩

/-! ## Literals and names -/

/-- A lexeme that is read as a name. -/
def Names (name : String) : Lexeme → Prop
  | .name text => text = name
  | .word text => text = name ∧ isReserved name = false
  | _ => False

theorem Names.identifier? {name : String} {lexeme : Lexeme} (h : Names name lexeme)
    (rest : Input) : identifier? (lexeme :: rest) = some (name, rest) := by
  cases lexeme with
  | name text =>
      cases h
      rfl
  | word text =>
      obtain ⟨rfl, hreserved⟩ := h
      simp [Statement.identifier?, hreserved]
  | _ => cases h

theorem Names.anyIdentifier? {name : String} {lexeme : Lexeme} (h : Names name lexeme)
    (rest : Input) : anyIdentifier? (lexeme :: rest) = some (name, rest) := by
  cases lexeme with
  | name text =>
      cases h
      rfl
  | word text =>
      obtain ⟨rfl, -⟩ := h
      rfl
  | _ => cases h

theorem Names.ne_keyword {name text keyword : String} (h : Names name (.word text))
    (hkeyword : keyword ∈ reservedWords) : lowerAscii text ≠ keyword := by
  obtain ⟨rfl, hreserved⟩ := h
  rintro rfl
  simp [isReserved, hkeyword] at hreserved

theorem Names.opensTerm {name : String} {lexeme : Lexeme} (h : Names name lexeme) :
    lexeme.opensTerm = true := by
  cases lexeme with
  | name text => rfl
  | word text =>
      have hdistinct : lowerAscii text ≠ "distinct" := h.ne_keyword (by decide)
      have hall : lowerAscii text ≠ "all" := h.ne_keyword (by decide)
      simp [Lexeme.opensTerm, hdistinct, hall]
  | _ => cases h

/-- A name is no keyword of an operand. -/
theorem Names.operand? {name : String} {lexeme : Lexeme} (h : Names name lexeme)
    {rest : Input} (hrest : symbol? "(" rest = none) (fuel : Nat) :
    operand? (fuel + 1) (lexeme :: rest) = pathOrCall? fuel (lexeme :: rest) := by
  cases lexeme with
  | name text => rfl
  | word text =>
      have hne : ∀ keyword ∈ reservedWords, lowerAscii text ≠ keyword :=
        fun keyword => h.ne_keyword
      rw [Statement.operand?.eq_def]
      dsimp only
      split
      next heq => exact absurd heq (hne _ (by decide))
      next heq => exact absurd heq (hne _ (by decide))
      next heq => exact absurd heq (hne _ (by decide))
      next heq => exact absurd heq (hne _ (by decide))
      next heq => exact absurd heq (hne _ (by decide))
      next heq => exact absurd heq (hne _ (by decide))
      next =>
        split
        next => simp [symbol?] at hrest
        next => rfl
      next => rfl
  | _ => cases h

theorem pathRest_of_follows {rest : Input} (h : symbol? "." rest = none) :
    pathRest rest = ([], rest) := by
  rw [pathRest.eq_def]
  split
  next => simp [symbol?] at h
  next => simp [symbol?] at h
  next => rfl

theorem Names.pathOrCall? {name : String} {lexeme : Lexeme} (h : Names name lexeme)
    {names : List String} {input rest : Input} (hcall : symbol? "(" input = none)
    (hpath : pathRest input = (names, rest)) (hrest : symbol? "(" rest = none)
    (fuel : Nat) :
    pathOrCall? (fuel + 1) (lexeme :: input) = some (.path (name :: names), rest) := by
  rw [Statement.pathOrCall?.eq_def]
  dsimp only
  split
  next heq =>
    cases heq
    simp [symbol?] at hcall
  next =>
    simp only [path?, h.identifier?, Option.map_some, hpath, Option.bind_eq_bind,
      Option.bind_some]
    split
    next => simp [symbol?] at hrest
    next => rfl

theorem Names.operand {name : String} {lexeme : Lexeme} (h : Names name lexeme) :
    Operand [lexeme] := by
  refine .ofReads h.opensTerm rfl fun fuel rest hfuel hrest => ?_
  obtain ⟨fuel, rfl⟩ : ∃ less, fuel = less + 2 := ⟨fuel - 2, by omega⟩
  have hcall := hrest.symbol? (.inl rfl)
  have hpath := pathRest_of_follows (hrest.symbol? (.inr rfl))
  exact ⟨_, (h.operand? hcall (fuel + 1)).trans (h.pathOrCall? hcall hpath hcall fuel)⟩

theorem Operand.minus {lexemes : Input} (h : Operand lexemes) :
    Operand (.symbol "-" :: lexemes) := by
  obtain ⟨first, more, hlexemes, hfirst⟩ := h.opens
  refine .ofReads rfl ?_ fun fuel rest hfuel hrest => ?_
  · rw [hlexemes]
    exact symbol?_of_opensTerm hfirst (by decide) more
  · have hlength : 1 ≤ lexemes.length := by simp [hlexemes]
    obtain ⟨fuel, rfl⟩ : ∃ less, fuel = less + 3 := ⟨fuel - 3, by omega⟩
    obtain ⟨term, hterm⟩ := h.reads (fuel + 1) (by omega) hrest
    have hoperand : operand? (fuel + 3) (.symbol "-" :: (lexemes ++ rest)) =
        (term? (fuel + 2) productLevel (lexemes ++ rest)).map
          fun read => (.unary "-" read.1, read.2) := rfl
    refine ⟨.unary "-" term, ?_⟩
    rw [hoperand, term?, hterm]
    simp [continue?_productLevel]

/-- A sequence with a minus sign before its first operand. -/
theorem Sequence.minus {lexemes : Input} (h : Sequence lexemes) :
    Sequence (.symbol "-" :: lexemes) := by
  obtain ⟨operand, tail, rfl, hoperand, htail⟩ := h
  exact ⟨.symbol "-" :: operand, tail, rfl, hoperand.minus, htail⟩

theorem Sequence.parenthesized {lexemes : Input} (h : Sequence lexemes) :
    Operand (.symbol "(" :: (lexemes ++ [.symbol ")"])) := by
  obtain ⟨first, more, hlexemes, hfirst⟩ := h.opens
  refine .ofReads rfl ?_ fun fuel rest hfuel _ => ?_
  · rw [hlexemes]
    exact symbol?_of_opensTerm hfirst (by decide) _
  · simp only [List.length_append, List.length_singleton] at hfuel
    obtain ⟨fuel, rfl⟩ : ∃ less, fuel = less + 1 := ⟨fuel - 1, by omega⟩
    obtain ⟨term, hterm⟩ := h.reads (stops_cons rfl rest : Stops (.symbol ")" :: rest))
      (show 8 * lexemes.length ≤ fuel by omega)
    have hoperand : operand? (fuel + 1) (.symbol "(" :: (lexemes ++ .symbol ")" :: rest)) =
        (term? fuel 0 (lexemes ++ .symbol ")" :: rest)).bind fun inner =>
          (symbol? ")" inner.2).bind fun rest => some (.paren inner.1, rest) := rfl
    refine ⟨.paren term, ?_⟩
    rw [List.append_assoc, List.singleton_append, hoperand, hterm]
    rfl

/-! ## Calls -/

/-- The arguments of a call with commas between them. -/
inductive Arguments : Input → Prop
  | one {first : Input} (hfirst : Sequence first) : Arguments first
  | more {first others : Input} (hfirst : Sequence first) (hothers : Arguments others) :
      Arguments (first ++ .symbol "," :: others)

theorem Arguments.opens {lexemes : Input} (h : Arguments lexemes) :
    ∃ first more, lexemes = first :: more ∧ first.opensTerm = true := by
  cases h with
  | one hfirst => exact hfirst.opens
  | more hfirst hothers =>
      obtain ⟨first, more, rfl, hopens⟩ := hfirst.opens
      exact ⟨first, _, rfl, hopens⟩

theorem Arguments.moreArgs? {lexemes : Input} (h : Arguments lexemes) (rest : Input) :
    ∀ fuel, 8 * lexemes.length < fuel →
      ∃ terms, moreArgs? fuel (lexemes ++ .symbol ")" :: rest) = some (terms, rest) := by
  induction h with
  | @one first hfirst =>
      intro fuel hfuel
      obtain ⟨fuel, rfl⟩ : ∃ less, fuel = less + 1 := ⟨fuel - 1, by omega⟩
      obtain ⟨term, hterm⟩ := hfirst.reads (stops_cons rfl rest : Stops (.symbol ")" :: rest))
        (show 8 * first.length ≤ fuel by omega)
      refine ⟨[term], ?_⟩
      rw [Statement.moreArgs?, hterm]
      rfl
  | @more first others hfirst hothers ih =>
      intro fuel hfuel
      simp only [List.length_append, List.length_cons] at hfuel
      obtain ⟨fuel, rfl⟩ : ∃ less, fuel = less + 1 := ⟨fuel - 1, by omega⟩
      obtain ⟨terms, hterms⟩ := ih fuel (by omega)
      obtain ⟨term, hterm⟩ := hfirst.reads
        (stops_cons rfl _ : Stops (.symbol "," :: (others ++ .symbol ")" :: rest)))
        (show 8 * first.length ≤ fuel by omega)
      refine ⟨term :: terms, ?_⟩
      rw [List.append_assoc, List.cons_append, Statement.moreArgs?, hterm]
      simp [hterms]

/-- No arguments, or arguments with commas between them. -/
def ArgumentList (lexemes : Input) : Prop := lexemes = [] ∨ Arguments lexemes

theorem ArgumentList.args? {lexemes : Input} (h : ArgumentList lexemes) (rest : Input)
    {fuel : Nat} (hfuel : 8 * lexemes.length + 1 < fuel) :
    ∃ terms, args? fuel (lexemes ++ .symbol ")" :: rest) = some (terms, rest) := by
  obtain ⟨fuel, rfl⟩ : ∃ less, fuel = less + 1 := ⟨fuel - 1, by omega⟩
  rcases h with rfl | h
  · exact ⟨[], rfl⟩
  · obtain ⟨first, more, hlexemes, hopens⟩ := h.opens
    obtain ⟨terms, hterms⟩ := h.moreArgs? rest fuel (by omega)
    refine ⟨terms, ?_⟩
    rw [Statement.args?.eq_def]
    dsimp only
    rw [hlexemes] at hterms ⊢
    split
    next heq =>
      rw [List.head_eq_of_cons_eq heq] at hopens
      cases hopens
    next heq =>
      rw [List.head_eq_of_cons_eq heq] at hopens
      cases hopens
    next => exact hterms

theorem ArgumentList.skipKeyword_distinct {lexemes : Input} (h : ArgumentList lexemes)
    (rest : Input) : skipKeyword "distinct" (lexemes ++ .symbol ")" :: rest) =
      lexemes ++ .symbol ")" :: rest := by
  rcases h with rfl | h
  · rfl
  · obtain ⟨first, more, rfl, hopens⟩ := h.opens
    rw [skipKeyword, List.cons_append, keyword?_of_opensTerm hopens (.inl rfl)]
    rfl

/-- A word that names a function before a parenthesis. -/
def isCallable (text : String) : Bool :=
  !(["null", "true", "false", "not", "case", "cast", "extract", "distinct", "all"].contains
    (lowerAscii text))

/-- The arguments of a call, perhaps after `DISTINCT`. -/
theorem ArgumentList.call? {lexemes rest : Input} (h : ArgumentList lexemes)
    (hrest : Follows rest) (distinct : Bool) (names : List String) {fuel : Nat}
    (hfuel : 8 * lexemes.length + 2 < fuel) :
    ∃ term, call? fuel names ((if distinct then [.word "DISTINCT"] else []) ++
      (lexemes ++ .symbol ")" :: rest)) = some (term, rest) := by
  obtain ⟨fuel, rfl⟩ : ∃ less, fuel = less + 1 := ⟨fuel - 1, by omega⟩
  obtain ⟨terms, hterms⟩ := h.args? rest (show 8 * lexemes.length + 1 < fuel by omega)
  have hskip : skipKeyword "distinct" ((if distinct then [.word "DISTINCT"] else []) ++
      (lexemes ++ .symbol ")" :: rest)) = lexemes ++ .symbol ")" :: rest := by
    cases distinct with
    | false => exact h.skipKeyword_distinct rest
    | true => rfl
  rw [Statement.call?.eq_def]
  dsimp only
  rw [hskip, hterms]
  simp [hrest.keyword?_within]

/-- The branches of a case distinction. -/
inductive Branches : Input → Prop
  | one {condition result : Input} (hcondition : Sequence condition)
      (hresult : Sequence result) :
      Branches (.word "WHEN" :: (condition ++ .word "THEN" :: result))
  | more {condition result others : Input} (hcondition : Sequence condition)
      (hresult : Sequence result) (hothers : Branches others) :
      Branches (.word "WHEN" :: (condition ++ .word "THEN" :: (result ++ others)))

theorem Branches.stops {lexemes : Input} (h : Branches lexemes) (rest : Input) :
    Stops (lexemes ++ rest) ∧ startsWith "when" (lexemes ++ rest) = true := by
  cases h with
  | one => exact ⟨stops_cons rfl _, rfl⟩
  | more => exact ⟨stops_cons rfl _, rfl⟩

/-- One branch is read, and the next one if there is one. -/
theorem branches?_cons {condition result rest : Input} (hcondition : Sequence condition)
    (hresult : Sequence result) (hrest : Stops rest) {fuel : Nat}
    (hfuel : 8 * (condition.length + result.length) ≤ fuel) :
    ∃ first second, branches? (fuel + 1)
        (.word "WHEN" :: (condition ++ .word "THEN" :: (result ++ rest))) =
      if startsWith "when" rest then
        (branches? fuel rest).map fun others => ((first, second) :: others.1, others.2)
      else some ([(first, second)], rest) := by
  obtain ⟨first, hfirst⟩ := hcondition.reads
    (stops_cons rfl _ : Stops (.word "THEN" :: (result ++ rest)))
    (show 8 * condition.length ≤ fuel by omega)
  obtain ⟨second, hsecond⟩ := hresult.reads hrest (show 8 * result.length ≤ fuel by omega)
  have hwhen : ∀ input, keyword? "when" (.word "WHEN" :: input) = some input := fun _ => rfl
  have hthen : ∀ input, keyword? "then" (.word "THEN" :: input) = some input := fun _ => rfl
  refine ⟨first, second, ?_⟩
  simp only [branches?, hwhen, Option.bind_eq_bind, Option.bind_some, hfirst, hthen, hsecond]
  split
  next => cases branches? fuel rest <;> rfl
  next => rfl

theorem Branches.branches? {lexemes : Input} (h : Branches lexemes) {rest : Input}
    (hrest : Stops rest) (hend : startsWith "when" rest = false) :
    ∀ fuel, 8 * lexemes.length < fuel →
      ∃ branches, branches? fuel (lexemes ++ rest) = some (branches, rest) := by
  induction h with
  | @one condition result hcondition hresult =>
      intro fuel hfuel
      simp only [List.length_append, List.length_cons] at hfuel
      obtain ⟨fuel, rfl⟩ : ∃ less, fuel = less + 1 := ⟨fuel - 1, by omega⟩
      obtain ⟨first, second, hbranch⟩ := branches?_cons hcondition hresult hrest
        (show _ ≤ fuel by omega)
      refine ⟨[(first, second)], ?_⟩
      simpa [hend] using hbranch
  | @more condition result others hcondition hresult hothers ih =>
      intro fuel hfuel
      simp only [List.length_append, List.length_cons] at hfuel
      obtain ⟨fuel, rfl⟩ : ∃ less, fuel = less + 1 := ⟨fuel - 1, by omega⟩
      obtain ⟨hstops, hstarts⟩ := hothers.stops rest
      obtain ⟨first, second, hbranch⟩ := branches?_cons hcondition hresult hstops
        (show _ ≤ fuel by omega)
      obtain ⟨branches, hbranches⟩ := ih fuel (by omega)
      refine ⟨(first, second) :: branches, ?_⟩
      simpa [hstarts, hbranches] using hbranch

end Statement

end MetricSql
