import MetricSql.Proofs.Plan.Printable

/-!
# Watching for comments

Two minus signs outside quoted names open a comment, which hides the rest of the line.  The text of a sequence of
tokens is read character by character for them.  Names are quoted so that nothing in them counts, and a minus sign
is never the last character of a sequence, so sequences can be put together.
-/

namespace MetricSql

/-! ## Reading for two minus signs -/

/-- What is known after the text read so far. -/
inductive Watch where
  /-- Outside names, and not after a minus sign. -/
  | calm
  /-- After one minus sign. -/
  | minus
  /-- In a quoted name. -/
  | inside
  /-- After a closing mark, which ends the name unless it is written twice. -/
  | closing
  /-- After two minus signs. -/
  | opened
deriving DecidableEq

namespace Watch

def outside (marks : Char × Char) (c : Char) : Watch :=
  if c = '-' then minus else if c = marks.1 then inside else calm

def next (marks : Char × Char) : Watch → Char → Watch
  | calm, c => outside marks c
  | minus, c => if c = '-' then opened else outside marks c
  | inside, c => if c = marks.2 then closing else inside
  | closing, c => if c = marks.2 then inside else outside marks c
  | opened, _ => opened

def after (marks : Char × Char) (watch : Watch) (text : List Char) : Watch :=
  text.foldl (next marks) watch

/-- Outside names and not after a minus sign, with a name complete perhaps. -/
def Settled (watch : Watch) : Prop := watch = calm ∨ watch = closing

/-- A comment is opened or everything is settled. -/
def Ends (opens : Bool) (watch : Watch) : Prop :=
  if opens then watch = opened else watch.Settled

end Watch

/-- Whether two minus signs follow each other in the text outside its quoted names. -/
def opensComment (dialect : Dialect) (text : List Char) : Bool :=
  Watch.after dialect.identifierMarks .calm text = .opened

namespace Watch

variable {marks : Char × Char} {watch : Watch} {text rest : List Char}

theorem after_append :
    after marks watch (text ++ rest) = after marks (after marks watch text) rest :=
  List.foldl_append

theorem after_cons {c : Char} : after marks watch (c :: text) = after marks (next marks watch c) text :=
  rfl

theorem after_opened (text : List Char) : after marks opened text = opened := by
  induction text with
  | nil => rfl
  | cons c rest ih => exact ih

/-- The characters that a reader heeds. -/
def signs : List Char := ['-', '"', '\x60', '[', ']']

theorem next_of_notMem
    {dialect : Dialect} {c : Char} (hc : c ∉ signs)
    (hwatch : watch.Settled ∨ watch = minus) :
    next dialect.identifierMarks watch c = calm := by
  have hmarks : dialect.identifierMarks.1 ∈ signs ∧ dialect.identifierMarks.2 ∈ signs := by
    cases dialect <;> decide
  have hminus : c ≠ '-' := fun h => hc (h ▸ by decide)
  have hopening : c ≠ dialect.identifierMarks.1 := fun h => hc (h ▸ hmarks.1)
  have hclosing : c ≠ dialect.identifierMarks.2 := fun h => hc (h ▸ hmarks.2)
  rcases hwatch with (rfl | rfl) | rfl <;> simp [next, outside, hminus, hopening, hclosing]

theorem after_of_notMem {dialect : Dialect} (h : ∀ c ∈ text, c ∉ signs) :
    after dialect.identifierMarks calm text = calm := by
  induction text with
  | nil => rfl
  | cons c rest ih =>
      rw [after_cons, next_of_notMem (h c List.mem_cons_self) (.inl (.inl rfl))]
      exact ih fun d hd => h d (List.mem_cons_of_mem _ hd)

theorem after_cons_of_notMem
    {dialect : Dialect} {c : Char} (hc : c ∉ signs) (hwatch : watch.Settled ∨ watch = minus) :
    after dialect.identifierMarks watch (c :: text) =
      after dialect.identifierMarks calm (c :: text) := by
  rw [after_cons, after_cons, next_of_notMem hc hwatch, next_of_notMem hc (.inl (.inl rfl))]

theorem after_doubled (text : List Char) :
    after marks inside (Text.doubled marks.2 text) = inside := by
  induction text with
  | nil => rfl
  | cons c rest ih =>
      by_cases hc : c = marks.2
      · simpa [Text.doubled, hc, after_cons, next] using ih
      · simpa [Text.doubled, hc, after_cons, next] using ih

theorem after_quoted {dialect : Dialect} (name : String) :
    after dialect.identifierMarks calm (dialect.quoteIdentifier name).toList = closing := by
  have hopening : next dialect.identifierMarks calm dialect.identifierMarks.1 = inside := by
    cases dialect <;> decide
  rw [Dialect.quoteIdentifier, Text.quoted, String.toList_ofList, after_cons, hopening,
    after_append, after_doubled]
  simp [after, next]

end Watch

/-! ## Reading tokens -/

theorem isPlainRest_upper {c : Char} (h : Text.isPlainRest c = true) :
    ∀ d ∈ Text.upperChar c, Text.isPlainRest d = true := by
  have hall : ∀ n < 128, Text.isPlainRest (Char.ofNat n) = true →
      Text.isPlainRest (Char.ofNat n).toUpper = true := by
    decide +kernel
  have hcode : c.toNat < 128 := by
    have hrange := isPlainRest_toNat h
    omega
  intro d hd
  have heq : d = c.toUpper := by simpa [Text.upperChar, hcode] using hd
  have hchar := hall c.toNat hcode
  rw [Char.ofNat_toNat] at hchar
  exact heq ▸ hchar h

theorem isPlainRest_of_mem_upper
    {name : String} (h : Text.isPlain name = true) {c : Char}
    (hc : c ∈ (Text.upper name).toList) : Text.isPlainRest c = true := by
  rw [Text.upper, String.toList_ofList, List.mem_flatMap] at hc
  obtain ⟨d, hd, hupper⟩ := hc
  refine isPlainRest_upper ?_ c hupper
  unfold Text.isPlain at h
  cases hchars : name.toList with
  | nil => simp [hchars] at hd
  | cons first rest =>
      rw [hchars] at h hd
      simp only [Text.isWord, Bool.and_eq_true, List.all_eq_true] at h
      rcases List.mem_cons.mp hd with rfl | hd
      · exact isPlainRest_of_start h.1
      · exact h.2 d hd

theorem notMem_signs_of_plain {c : Char} (h : Text.isPlainRest c = true) : c ∉ Watch.signs := by
  intro hc
  have hall : (Watch.signs.all fun d => !Text.isPlainRest d) = true := by decide
  have hsign := List.all_eq_true.mp hall c hc
  rw [h] at hsign
  cases hsign

theorem notMem_signs_of_all
    {text : List Char} (h : (text.all fun c => !Watch.signs.contains c) = true) :
    ∀ c ∈ text, c ∉ Watch.signs := by
  intro c hc
  simpa using List.all_eq_true.mp h c hc

theorem notMem_signs_of_isDigit {c : Char} (h : c.isDigit = true) : c ∉ Watch.signs :=
  notMem_signs_of_plain (by simp [Text.isPlainRest, Char.isAlphanum, h])

namespace Token

def written (profile : Profile) (tokens : List Token) : List Char :=
  tokens.flatMap fun token => ((token.text profile).toOption.getD "").toList

theorem toList_eq_written
    {profile : Profile} {tokens : List Token} {text : String}
    (h : textAll profile tokens = .ok text) : text.toList = written profile tokens := by
  induction tokens generalizing text with
  | nil =>
      cases h
      rfl
  | cons token rest ih =>
      obtain ⟨first, others, hfirst, hothers, rfl⟩ := textAll_cons_eq_ok h
      rw [String.toList_append, ih hothers]
      simp [written, hfirst, Except.toOption]

def isCalm : Token → Bool
  | keyword _ | space => true
  | symbol s => s != .minus
  | int value => 0 ≤ value
  | function name => Text.isPlain name
  | _ => false

variable {profile : Profile} {token : Token} {tokens rest : List Token}

theorem written_cons :
    written profile (token :: rest) = written profile [token] ++ written profile rest := by
  simp [written]

theorem written_append :
    written profile (tokens ++ rest) = written profile tokens ++ written profile rest := by
  simp [written]

theorem written_keyword (word : Keyword) : written profile [keyword word] = word.text.toList := by
  simp [written, Token.text, Except.toOption]

theorem written_symbol (s : Symbol) : written profile [symbol s] = s.text.toList := by
  simp [written, Token.text, Except.toOption]

theorem written_function (name : String) :
    written profile [function name] = (Text.upper name).toList := by
  simp [written, Token.text, Except.toOption]

theorem written_ident (name : String) :
    written profile [ident name] = (profile.quoteIdentifier name).toList := by
  simp [written, Token.text, Except.toOption]

theorem written_int (value : Int64) :
    written profile [int value] =
      if decide (value < 0) then '-' :: Decimal.digitsOf value.toInt.natAbs
      else Decimal.digitsOf value.toInt.natAbs := by
  simpa [written, Token.text, Except.toOption] using intText_eq_signed value

theorem written_minus : written profile [symbol .minus] = ['-'] :=
  written_symbol .minus

theorem upper_ne_nil {name : String} (h : Text.isPlain name = true) :
    (Text.upper name).toList ≠ [] := by
  have hcode : ∀ c, Text.isPlainStart c = true → c.toNat < 128 := by
    intro c hc
    have hrange := isPlainRest_toNat (isPlainRest_of_start hc)
    omega
  unfold Text.isPlain at h
  rw [Text.upper, String.toList_ofList]
  cases hchars : name.toList with
  | nil => simp [hchars, Text.isWord] at h
  | cons first more =>
      rw [hchars] at h
      simp only [Text.isWord, Bool.and_eq_true] at h
      simp [Text.upperChar, hcode first h.1]

theorem written_of_isCalm (h : token.isCalm = true) :
    written profile [token] ≠ [] ∧ ∀ c ∈ written profile [token], c ∉ Watch.signs := by
  cases token with
  | keyword word =>
      rw [written_keyword]
      refine ⟨?_, notMem_signs_of_all ?_⟩
      · cases word <;> decide
      · cases word <;> decide
  | symbol s =>
      cases s with
      | minus => cases h
      | _ =>
          rw [written_symbol]
          exact ⟨by decide, notMem_signs_of_all (by decide)⟩
  | space => exact ⟨by simp [written, Token.text, Except.toOption],
      by simp [written, Token.text, Except.toOption, Watch.signs]⟩
  | int value =>
      have hvalue : ¬ value < 0 := by simpa [isCalm] using h
      simp only [written_int, hvalue, decide_false, Bool.false_eq_true, if_false]
      exact ⟨Decimal.digitsOf_ne_nil _, fun c hc =>
        notMem_signs_of_isDigit (Decimal.isDigit_of_mem_digitsOf hc)⟩
  | function name =>
      rw [written_function]
      exact ⟨upper_ne_nil h, fun c hc => notMem_signs_of_plain (isPlainRest_of_mem_upper h hc)⟩
  | _ => cases h

/-! ## Sequences of tokens -/

def watch (profile : Profile) (tokens : List Token) (start : Watch) : Watch :=
  Watch.after profile.dialect.identifierMarks start (written profile tokens)

/-- Read from the start, the tokens open a comment or leave everything settled. -/
def Settles (profile : Profile) (opens : Bool) (tokens : List Token) : Prop :=
  (watch profile tokens .calm).Ends opens

/-- Likewise after anything that is settled. -/
def Follows (profile : Profile) (opens : Bool) (tokens : List Token) : Prop :=
  ∀ start : Watch, start.Settled → (watch profile tokens start).Ends opens

/-- After the tokens any other can stand. -/
def Calms (profile : Profile) (tokens : List Token) : Prop :=
  ∀ start : Watch, start.Settled → watch profile tokens start = .calm

theorem watch_append {start : Watch} :
    watch profile (tokens ++ rest) start = watch profile rest (watch profile tokens start) := by
  rw [watch, written_append, Watch.after_append]
  rfl

theorem calms_of_isCalm (h : ∀ t ∈ token :: rest, t.isCalm = true) :
    Calms profile (token :: rest) := by
  intro start hstart
  have hchars : ∀ c ∈ written profile (token :: rest), c ∉ Watch.signs := by
    intro c hc
    obtain ⟨t, ht, hct⟩ := List.mem_flatMap.mp hc
    exact (written_of_isCalm (h t ht)).2 c (by simpa [written] using hct)
  have hne : written profile (token :: rest) ≠ [] := by
    rw [written_cons]
    exact List.append_ne_nil_of_left_ne_nil (written_of_isCalm (h token List.mem_cons_self)).1 _
  rw [watch]
  cases htext : written profile (token :: rest) with
  | nil => exact absurd htext hne
  | cons c cs =>
      rw [htext] at hchars
      rw [Watch.after_cons_of_notMem (hchars c List.mem_cons_self) (.inl hstart)]
      exact Watch.after_of_notMem hchars

variable {opens opens' : Bool}

theorem settles_nil : Settles profile false [] := .inl rfl

theorem follows_nil : Follows profile false [] := fun _ hstart => hstart

theorem Follows.settles (h : Follows profile opens tokens) : Settles profile opens tokens :=
  h .calm (.inl rfl)

theorem Calms.follows (h : Calms profile tokens) : Follows profile false tokens := by
  intro start hstart
  rw [h start hstart]
  exact .inl rfl

theorem Calms.follows_append (h : Calms profile tokens) (hrest : Settles profile opens rest) :
    Follows profile opens (tokens ++ rest) := by
  intro start hstart
  rw [watch_append, h start hstart]
  exact hrest

theorem Follows.ends
    (h : Follows profile opens' rest) {start : Watch} (hstart : start.Ends opens) :
    (watch profile rest start).Ends (opens || opens') := by
  cases opens with
  | true =>
      have hopened : start = .opened := hstart
      rw [hopened, watch, Watch.after_opened]
      rfl
  | false => simpa using h start hstart

theorem Settles.append (h : Settles profile opens tokens) (hrest : Follows profile opens' rest) :
    Settles profile (opens || opens') (tokens ++ rest) := by
  rw [Settles, watch_append]
  exact hrest.ends h

theorem Follows.append (h : Follows profile opens tokens) (hrest : Follows profile opens' rest) :
    Follows profile (opens || opens') (tokens ++ rest) := by
  intro start hstart
  rw [watch_append]
  exact hrest.ends (h start hstart)

theorem Settles.opensComment_eq (h : Settles profile opens tokens) :
    opensComment profile.dialect (written profile tokens) = opens := by
  unfold Settles watch at h
  unfold opensComment
  cases opens with
  | true =>
      have hopened : Watch.after _ _ _ = Watch.opened := h
      exact decide_eq_true hopened
  | false =>
      refine decide_eq_false ?_
      rcases h with h | h
      · rw [h]
        decide
      · rw [h]
        decide

theorem Settles.joined
    {separator : List Token} (h : Settles profile opens tokens)
    (hseparator : Calms profile separator) (hrest : Settles profile opens' rest) :
    Settles profile (opens || opens') (tokens ++ separator ++ rest) := by
  rw [List.append_assoc]
  exact h.append (hseparator.follows_append hrest)

theorem Settles.enclosed
    {before after : List Token} (hbefore : Calms profile before)
    (h : Settles profile opens tokens) (hafter : Calms profile after) :
    Settles profile opens (before ++ (tokens ++ after)) := by
  refine (hbefore.follows_append ?_).settles
  simpa using h.append hafter.follows

theorem calms_rparen : Calms profile [symbol .rparen] := calms_of_isCalm (by simp [isCalm])

theorem Settles.parenthesized (h : Settles profile opens tokens) :
    Settles profile opens (Expr.parenthesized tokens) := by
  have hopen : Calms profile [symbol .lparen] := calms_of_isCalm (by simp [isCalm])
  exact h.enclosed hopen calms_rparen

theorem Settles.operandTokens {e : Expr} (h : Settles profile opens tokens) :
    Settles profile opens (e.operandTokens tokens) := by
  unfold Expr.operandTokens
  split
  next => exact h.parenthesized
  next => exact h

theorem Settles.callTokens
    {name : String} (hname : Text.isPlain name = true) (h : Settles profile opens tokens) :
    Settles profile opens (Expr.callTokens name tokens) := by
  have hopen : Calms profile [function name, symbol .lparen] :=
    calms_of_isCalm (by simp [isCalm, hname])
  have henclosed := h.enclosed hopen calms_rparen
  rwa [List.cons_append, List.singleton_append] at henclosed

theorem calms_separator : Calms profile Expr.separator := calms_of_isCalm (by simp [isCalm])

theorem calms_operator (op : BinaryOp) : Calms profile [space, op.token, space] := by
  cases op with
  | sub =>
      have htext : written profile [space, BinaryOp.sub.token, space] = [' ', '-', ' '] := by
        simp [written, BinaryOp.token, Token.text, Except.toOption, Symbol.text]
      intro start hstart
      rw [watch, htext]
      rcases hstart with rfl | rfl <;> cases profile.dialect <;> decide
  | _ => exact calms_of_isCalm (by simp [isCalm, BinaryOp.token])

/-! ## Single tokens -/

theorem settles_ident (name : String) : Settles profile false [ident name] := by
  rw [Settles, watch, written_ident, Profile.quoteIdentifier_eq]
  by_cases hbare : profile.writesBare name = true
  · rw [if_pos hbare]
    refine .inl (Watch.after_of_notMem ?_)
    intro c hc
    simp only [Profile.writesBare, Bool.and_eq_true] at hbare
    have hplain := isPlain_of_isBare hbare.2.1
    unfold Text.isPlain at hplain
    cases hchars : name.toList with
    | nil => simp [hchars] at hc
    | cons first more =>
        rw [hchars] at hplain hc
        simp only [Text.isWord, Bool.and_eq_true, List.all_eq_true] at hplain
        rcases List.mem_cons.mp hc with rfl | hc
        · exact notMem_signs_of_plain (isPlainRest_of_start hplain.1)
        · exact notMem_signs_of_plain (hplain.2 c hc)
  · rw [if_neg hbare]
    exact .inr (Watch.after_quoted name)

/-- The minus sign of an exponent stands alone. -/
theorem after_numeral {dialect : Dialect} {text : List Char} (h : Decimal.IsNumeral text) :
    Watch.after dialect.identifierMarks .calm text = .calm := by
  have hdigits : ∀ {digits : List Char}, (∀ c ∈ digits, c.isDigit = true) →
      Watch.after dialect.identifierMarks .calm digits = .calm :=
    fun hall => Watch.after_of_notMem fun c hc => notMem_signs_of_isDigit (hall c hc)
  obtain ⟨whole, fraction, exponent, hnumeral, rfl⟩ := h
  have hfraction : Watch.after dialect.identifierMarks .calm fraction = .calm := by
    rcases hnumeral.fraction with rfl | ⟨digits, rfl, hall⟩
    · rfl
    · rw [Watch.after_cons, Watch.next_of_notMem (by decide) (.inl (.inl rfl))]
      exact hdigits hall
  have hexponent : Watch.after dialect.identifierMarks .calm exponent = .calm := by
    rcases hnumeral.exponent with rfl | ⟨sign, digits, hsign, hne, rfl, hall⟩
    · rfl
    · rw [Watch.after_cons, Watch.next_of_notMem (by decide) (.inl (.inl rfl))]
      rcases hsign with rfl | rfl
      · exact hdigits hall
      · obtain ⟨d, ds, rfl⟩ := List.exists_cons_of_ne_nil hne
        have hd := notMem_signs_of_isDigit (hall d List.mem_cons_self)
        have hminus : Watch.next dialect.identifierMarks .calm '-' = .minus := rfl
        rw [List.singleton_append, Watch.after_cons, hminus,
          Watch.after_cons_of_notMem hd (.inr rfl)]
        exact hdigits hall
  rw [Watch.after_append, Watch.after_append, hdigits hnumeral.whole, hfraction, hexponent]

theorem after_signedNumeral
    {dialect : Dialect} {text : List Char} (h : Decimal.IsNumeral text) (negative : Bool) :
    Watch.after dialect.identifierMarks .calm (if negative then '-' :: text else text) =
      .calm := by
  cases negative with
  | false => exact after_numeral h
  | true =>
      obtain ⟨c, cs, rfl, hc⟩ := h.head_isDigit
      have hminus : Watch.next dialect.identifierMarks .calm '-' = .minus := rfl
      rw [if_pos rfl, Watch.after_cons, hminus,
        Watch.after_cons_of_notMem (notMem_signs_of_isDigit hc) (.inr rfl)]
      exact after_numeral h

theorem settles_int (value : Int64) : Settles profile false [int value] := by
  rw [Settles, watch, written_int, after_signedNumeral (Decimal.isNumeral_digitsOf _)]
  exact .inl rfl

theorem written_float {value : Float} (h : Decimal.isFinite value = true) :
    ∃ m, written profile [float value] =
      if Decimal.isNegative value then '-' :: Decimal.literalLayout.magnitudeText m
      else Decimal.literalLayout.magnitudeText m := by
  unfold Decimal.isFinite at h
  cases hread : Decimal.read value with
  | finite negative m =>
      refine ⟨m, ?_⟩
      simp [written, Token.text, floatText, hread, Except.toOption, Decimal.isNegative,
        Decimal.Layout.signed]
  | _ => simp [hread] at h

theorem settles_float {value : Float} (h : Decimal.isFinite value = true) :
    Settles profile false [float value] := by
  obtain ⟨m, hwritten⟩ := written_float h
  rw [Settles, watch, hwritten, after_signedNumeral (Decimal.isNumeral_magnitudeText m)]
  exact .inl rfl

theorem settles_datePart (grain : Grain) :
    Settles profile false [string (profile.dialect.datePart grain)] ∧
      Settles profile false [verbatim (Text.upper (profile.dialect.datePart grain))] := by
  simp only [Settles, watch, written, Token.text, List.flatMap_cons, List.flatMap_nil]
  generalize profile.dialect = dialect
  constructor
  · left
    cases dialect <;> cases grain <;> decide +kernel
  · left
    cases dialect <;> cases grain <;> decide +kernel

theorem calms_floatType :
    Calms profile [space, keyword .AS, space, verbatim profile.dialect.floatType,
      symbol .rparen] := by
  simp only [Calms, watch, written, Token.text, List.flatMap_cons, List.flatMap_nil]
  generalize profile.dialect = dialect
  rintro start (rfl | rfl)
  · cases dialect <;> decide +kernel
  · cases dialect <;> decide +kernel

/-! ## The first character -/

/-- The text of the tokens starts, with a minus sign exactly if that is said. -/
def Leads (profile : Profile) (signed : Bool) (tokens : List Token) : Prop :=
  ∃ c cs, written profile tokens = c :: cs ∧ (c = '-' ↔ signed = true)

variable {signed : Bool}

theorem Leads.append (h : Leads profile signed tokens) (rest : List Token) :
    Leads profile signed (tokens ++ rest) := by
  obtain ⟨c, cs, htext, hc⟩ := h
  exact ⟨c, cs ++ written profile rest, by rw [written_append, htext, List.cons_append], hc⟩

theorem leads_of_isCalm (h : token.isCalm = true) (rest : List Token) :
    Leads profile false (token :: rest) := by
  obtain ⟨hne, hchars⟩ := written_of_isCalm h
  obtain ⟨c, cs, htext⟩ := List.exists_cons_of_ne_nil hne
  have hc : c ≠ '-' := by
    rintro rfl
    exact hchars '-' (by rw [htext]; exact List.mem_cons_self) (by decide)
  exact ⟨c, cs ++ written profile rest, by rw [written_cons, htext, List.cons_append],
    by simp [hc]⟩

theorem leads_ident (name : String) : Leads profile false [ident name] := by
  obtain ⟨c, cs, htext, -, hc⟩ := profile.quoteIdentifier_head name
  exact ⟨c, cs, by rw [written_ident, htext], by simp [hc]⟩

theorem leads_signedNumeral
    {text : List Char} (h : Decimal.IsNumeral text) (negative : Bool)
    (htokens : written profile tokens = if negative then '-' :: text else text) :
    Leads profile negative tokens := by
  obtain ⟨c, cs, rfl, hc⟩ := isNumeral_head h
  cases negative with
  | false => exact ⟨c, cs, htokens, by simp [hc]⟩
  | true => exact ⟨'-', c :: cs, htokens, by simp⟩

/-- A minus sign opens a comment before another one. -/
theorem Settles.minus (h : Settles profile opens tokens) (hlead : Leads profile signed tokens) :
    Settles profile (signed || opens) (symbol .minus :: tokens) := by
  obtain ⟨c, cs, htext, hc⟩ := hlead
  have hwatch : watch profile (symbol .minus :: tokens) .calm =
      Watch.after profile.dialect.identifierMarks .minus (c :: cs) := by
    rw [watch, written_cons, written_minus, htext]
    rfl
  cases signed with
  | true =>
      rw [Settles, hwatch, hc.mpr rfl]
      exact Watch.after_opened cs
  | false =>
      have hcalm : ∀ marks, Watch.next marks .minus c = Watch.next marks .calm c := by
        simp [Watch.next, mt hc.mp]
      rw [Settles, hwatch, Watch.after_cons, hcalm, ← Watch.after_cons, ← htext]
      exact h

end Token

end MetricSql
