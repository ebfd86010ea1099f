import MetricSql.Decimal.Layout
import MetricSql.Proofs.Lexeme.Scan

/-!
# Number literals

The text of a number literal, without its sign, is one numeral.
-/

namespace MetricSql

namespace Decimal

theorem isDigit_of_mem_digitsOf {n : Nat} {c : Char} (h : c ∈ digitsOf n) :
    c.isDigit = true :=
  Nat.isDigit_of_mem_toDigits (by decide) (by decide) h

theorem digitsOf_ne_nil (n : Nat) : digitsOf n ≠ [] := Nat.toDigits_ne_nil

theorem isDigit_of_mem_zeros {n : Nat} {c : Char} (h : c ∈ zeros n) :
    c.isDigit = true := by
  rw [List.eq_of_mem_replicate h]
  decide

/-- The text is one numeral. -/
def IsNumeral (text : List Char) : Prop :=
  ∃ whole fraction exponent, Lexeme.Numeral whole fraction exponent ∧
    text = whole ++ fraction ++ exponent

theorem IsNumeral.head_isDigit {text : List Char} (h : IsNumeral text) :
    ∃ c cs, text = c :: cs ∧ c.isDigit = true := by
  obtain ⟨whole, fraction, exponent, hnumeral, rfl⟩ := h
  obtain ⟨c, cs, rfl⟩ := List.exists_cons_of_ne_nil hnumeral.whole_ne
  exact ⟨c, cs ++ fraction ++ exponent, by simp, hnumeral.whole c List.mem_cons_self⟩

theorem isNumeral_digitsOf (n : Nat) : IsNumeral (digitsOf n) :=
  ⟨digitsOf n, [], [], ⟨digitsOf_ne_nil n, fun _ => isDigit_of_mem_digitsOf, .inl rfl,
    .inl rfl⟩, by simp⟩

theorem isNumeral_positional {digits : List Char} (hne : digits ≠ [])
    (hdigits : ∀ c ∈ digits, c.isDigit = true) (point : Int) :
    IsNumeral (positional true digits point) := by
  unfold positional
  split
  next =>
    refine ⟨['0'], '.' :: (zeros (-point).toNat ++ digits), [], ?_, by simp⟩
    refine ⟨by simp, by simp, .inr ⟨_, rfl, ?_⟩, .inl rfl⟩
    intro c hc
    rcases List.mem_append.mp hc with hc | hc
    · exact isDigit_of_mem_zeros hc
    · exact hdigits c hc
  next hpoint =>
    split
    next =>
      refine ⟨digits ++ zeros (point.toNat - digits.length), ['.', '0'], [], ?_, by simp⟩
      refine ⟨by simp [hne], ?_, .inr ⟨['0'], rfl, by simp⟩, .inl rfl⟩
      intro c hc
      rcases List.mem_append.mp hc with hc | hc
      · exact hdigits c hc
      · exact isDigit_of_mem_zeros hc
    next =>
      have htake : digits.take point.toNat ≠ [] := by
        intro htake
        rcases List.take_eq_nil_iff.mp htake with hzero | hnil
        · omega
        · exact hne hnil
      refine ⟨digits.take point.toNat, '.' :: digits.drop point.toNat, [], ?_, by simp⟩
      refine ⟨htake, fun c hc => hdigits c (List.mem_of_mem_take hc), .inr ⟨_, rfl, ?_⟩,
        .inl rfl⟩
      exact fun c hc => hdigits c (List.mem_of_mem_drop hc)

theorem intText_eq (n : Int) :
    ∃ sign digits, (sign = [] ∨ sign = ['-']) ∧ digits ≠ [] ∧ intText n = sign ++ digits ∧
      ∀ c ∈ digits, c.isDigit = true := by
  cases n with
  | ofNat n =>
      exact ⟨[], digitsOf n, .inl rfl, digitsOf_ne_nil n, rfl,
        fun _ => isDigit_of_mem_digitsOf⟩
  | negSucc n =>
      exact ⟨['-'], digitsOf (n + 1), .inr rfl, digitsOf_ne_nil _, rfl,
        fun _ => isDigit_of_mem_digitsOf⟩

theorem isNumeral_exponential {digits : List Char} (hne : digits ≠ [])
    (hdigits : ∀ c ∈ digits, c.isDigit = true) (point : Int) :
    IsNumeral (exponential digits point) := by
  obtain ⟨sign, power, hsign, hpower, htext, hpowerDigits⟩ := intText_eq (point - 1)
  have hexponent : 'e' :: intText (point - 1) = [] ∨ ∃ sign digits,
      (sign = [] ∨ sign = ['-']) ∧ digits ≠ [] ∧
        'e' :: intText (point - 1) = 'e' :: (sign ++ digits) ∧
        ∀ c ∈ digits, c.isDigit = true :=
    .inr ⟨sign, power, hsign, hpower, by rw [htext], hpowerDigits⟩
  unfold exponential
  split
  next => exact absurd rfl hne
  next d =>
    exact ⟨[d], [], 'e' :: intText (point - 1), ⟨by simp, hdigits, .inl rfl, hexponent⟩,
      by simp⟩
  next d rest _ =>
    refine ⟨[d], '.' :: rest, 'e' :: intText (point - 1), ?_, by simp⟩
    refine ⟨by simp, by simpa using hdigits d List.mem_cons_self, .inr ⟨rest, rfl, ?_⟩,
      hexponent⟩
    exact fun c hc => hdigits c (List.mem_cons_of_mem _ hc)

theorem isNumeral_magnitudeText (m : Magnitude) :
    IsNumeral (literalLayout.magnitudeText m) := by
  unfold Layout.magnitudeText
  split
  next =>
    refine ⟨['0'], ['.', '0'], [], ?_, rfl⟩
    exact ⟨by simp, by simp, .inr ⟨['0'], rfl, by simp⟩, .inl rfl⟩
  next =>
    have hne := digitsOf_ne_nil (m.shortest literalLayout.tie).coefficient
    have hdigits : ∀ c ∈ digitsOf (m.shortest literalLayout.tie).coefficient,
        c.isDigit = true :=
      fun _ => isDigit_of_mem_digitsOf
    dsimp only
    split
    · exact isNumeral_positional hne hdigits _
    · exact isNumeral_exponential hne hdigits _

end Decimal

/-- A numeral before a delimiter is scanned as one number. -/
theorem Lexeme.scans_numeral {dialect : Dialect} {text rest : List Char}
    {lexemes : List Lexeme} (htext : Decimal.IsNumeral text) (hrest : Delimited rest)
    (h : Scans dialect rest lexemes) :
    Scans dialect (text ++ rest) (.number (String.ofList text) :: lexemes) := by
  obtain ⟨whole, fraction, exponent, hnumeral, rfl⟩ := htext
  simpa using scans_number hnumeral hrest h

end MetricSql
