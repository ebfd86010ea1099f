import Mathlib.Data.List.Induction
import Mathlib.Order.Bounds.Basic
import Mathlib.Order.MinMax
import MetricSql.Text.Nearest

/-!
# The nearest name

The distance table computes the least number of edits that turn one text into
another.  The proof goes through the usual recurrence on the first characters:
no sequence of edits beats it, and some sequence reaches it.  The search then
keeps the first of the nearest candidates, unless all of them are too far.
-/

namespace MetricSql.Text

/-! ## Edits -/

/-- One character is inserted, deleted or replaced. -/
inductive Edit : List Char → List Char → Prop
  | insert (front back : List Char) (c : Char) : Edit (front ++ back) (front ++ c :: back)
  | delete (front back : List Char) (c : Char) : Edit (front ++ c :: back) (front ++ back)
  | replace (front back : List Char) (c d : Char) :
      Edit (front ++ c :: back) (front ++ d :: back)

/-- A text is turned into another by a number of edits, one after the other. -/
inductive Edits : Nat → List Char → List Char → Prop
  | refl (a : List Char) : Edits 0 a a
  | step {n : Nat} {a b c : List Char} (h : Edit a b) (rest : Edits n b c) : Edits (n + 1) a c

theorem Edit.cons {a b : List Char} (h : Edit a b) (x : Char) : Edit (x :: a) (x :: b) := by
  cases h with
  | insert front back c => exact .insert (x :: front) back c
  | delete front back c => exact .delete (x :: front) back c
  | replace front back c d => exact .replace (x :: front) back c d

theorem Edit.reverse {a b : List Char} (h : Edit a b) : Edit a.reverse b.reverse := by
  cases h with
  | insert front back c =>
      simpa using Edit.insert back.reverse front.reverse c
  | delete front back c =>
      simpa using Edit.delete back.reverse front.reverse c
  | replace front back c d =>
      simpa using Edit.replace back.reverse front.reverse c d

theorem Edits.cons {n : Nat} {a b : List Char} (h : Edits n a b) (x : Char) :
    Edits n (x :: a) (x :: b) := by
  induction h with
  | refl a => exact .refl _
  | step hedit rest ih => exact .step (hedit.cons x) ih

theorem Edits.reverse {n : Nat} {a b : List Char} (h : Edits n a b) :
    Edits n a.reverse b.reverse := by
  induction h with
  | refl a => exact .refl _
  | step hedit rest ih => exact .step hedit.reverse ih

theorem edits_reverse_iff {n : Nat} {a b : List Char} :
    Edits n a.reverse b.reverse ↔ Edits n a b := by
  constructor
  · intro h
    simpa using h.reverse
  · exact Edits.reverse

/-! ## The recurrence -/

/-- The last edit at the front removes, adds or replaces a character, or nothing
is done there. -/
def leastEdits : List Char → List Char → Nat
  | [], b => b.length
  | a, [] => a.length
  | x :: a, y :: b =>
    min (min (leastEdits a (y :: b) + 1) (leastEdits (x :: a) b + 1))
      (leastEdits a b + if x = y then 0 else 1)
termination_by a b => a.length + b.length

@[simp] theorem leastEdits_nil_left (b : List Char) : leastEdits [] b = b.length := by
  rw [leastEdits]

@[simp] theorem leastEdits_nil_right (a : List Char) : leastEdits a [] = a.length := by
  cases a <;> simp [leastEdits]

theorem leastEdits_cons_cons (x y : Char) (a b : List Char) :
    leastEdits (x :: a) (y :: b) =
      min (min (leastEdits a (y :: b) + 1) (leastEdits (x :: a) b + 1))
        (leastEdits a b + if x = y then 0 else 1) := by
  rw [leastEdits]

theorem edits_length_left (b : List Char) : Edits b.length [] b := by
  induction b with
  | nil => exact .refl []
  | cons y b ih => exact .step (.insert [] [] y) (ih.cons y)

theorem edits_length_right (a : List Char) : Edits a.length a [] := by
  induction a with
  | nil => exact .refl []
  | cons x a ih => exact .step (.delete [] a x) ih

theorem edits_leastEdits (a b : List Char) : Edits (leastEdits a b) a b := by
  fun_induction leastEdits a b with
  | case1 b => exact edits_length_left b
  | case2 a => exact edits_length_right a
  | case3 x a y b hdelete hinsert hkeep =>
      have hdelete : Edits (leastEdits a (y :: b) + 1) (x :: a) (y :: b) :=
        .step (.delete [] a x) hdelete
      have hinsert : Edits (leastEdits (x :: a) b + 1) (x :: a) (y :: b) :=
        .step (.insert [] (x :: a) y) (hinsert.cons y)
      have hreplace : Edits (leastEdits a b + if x = y then 0 else 1) (x :: a) (y :: b) := by
        by_cases hxy : x = y
        · rw [if_pos hxy, hxy]
          exact hkeep.cons y
        · rw [if_neg hxy]
          exact .step (.replace [] a x y) (hkeep.cons y)
      rcases min_choice (min (leastEdits a (y :: b) + 1) (leastEdits (x :: a) b + 1))
        (leastEdits a b + if x = y then 0 else 1) with hmin | hmin
      · rw [hmin]
        rcases min_choice (leastEdits a (y :: b) + 1) (leastEdits (x :: a) b + 1) with h | h
        · rw [h]
          exact hdelete
        · rw [h]
          exact hinsert
      · rw [hmin]
        exact hreplace

theorem leastEdits_self (a : List Char) : leastEdits a a = 0 := by
  induction a with
  | nil => simp
  | cons x a ih => simp [leastEdits_cons_cons, ih]

/-! ## No edit gains more than one -/

theorem leastEdits_cons_left_le (x : Char) (a b : List Char) :
    leastEdits (x :: a) b ≤ leastEdits a b + 1 := by
  cases b with
  | nil => simp
  | cons y b =>
      rw [leastEdits_cons_cons]
      omega

theorem leastEdits_cons_right_le (y : Char) (a b : List Char) :
    leastEdits a (y :: b) ≤ leastEdits a b + 1 := by
  cases a with
  | nil => simp
  | cons x a =>
      rw [leastEdits_cons_cons]
      omega

theorem leastEdits_le_cons_left (x : Char) (a b : List Char) :
    leastEdits a b ≤ leastEdits (x :: a) b + 1 := by
  induction b with
  | nil =>
      simp only [leastEdits_nil_right, List.length_cons]
      omega
  | cons y b ih =>
      have hdrop := leastEdits_cons_right_le y a b
      rw [leastEdits_cons_cons]
      omega

theorem leastEdits_replace_le (x z : Char) (a b : List Char) :
    leastEdits (x :: a) b ≤ leastEdits (z :: a) b + 1 := by
  induction b with
  | nil => simp
  | cons y b ih =>
      have hx : (if x = y then 0 else 1) ≤ 1 := by split <;> omega
      rw [leastEdits_cons_cons x, leastEdits_cons_cons z]
      omega

/-- An equal character in front of both texts keeps the bound. -/
theorem leastEdits_cons_le {a a' : List Char}
    (h : ∀ b, leastEdits a b ≤ leastEdits a' b + 1) (x : Char) (b : List Char) :
    leastEdits (x :: a) b ≤ leastEdits (x :: a') b + 1 := by
  induction b with
  | nil =>
      have hnil := h []
      simp only [leastEdits_nil_right, List.length_cons] at hnil ⊢
      omega
  | cons y b ih =>
      have hdelete := h (y :: b)
      have hkeep := h b
      rw [leastEdits_cons_cons, leastEdits_cons_cons]
      omega

theorem leastEdits_append_le {a a' : List Char}
    (h : ∀ b, leastEdits a b ≤ leastEdits a' b + 1) (front b : List Char) :
    leastEdits (front ++ a) b ≤ leastEdits (front ++ a') b + 1 := by
  induction front generalizing b with
  | nil => exact h b
  | cons x front ih => exact leastEdits_cons_le ih x b

theorem Edit.leastEdits_le {a a' : List Char} (h : Edit a a') (b : List Char) :
    leastEdits a b ≤ leastEdits a' b + 1 := by
  cases h with
  | insert front back c =>
      exact leastEdits_append_le (leastEdits_le_cons_left c back) front b
  | delete front back c =>
      exact leastEdits_append_le (leastEdits_cons_left_le c back) front b
  | replace front back c d =>
      exact leastEdits_append_le (leastEdits_replace_le c d back) front b

theorem Edits.leastEdits_le {n : Nat} {a b : List Char} (h : Edits n a b) :
    leastEdits a b ≤ n := by
  induction h with
  | refl a => rw [leastEdits_self]
  | step hedit rest ih =>
      have hfirst := hedit.leastEdits_le
      exact (hfirst _).trans (Nat.add_le_add_right ih 1)

/-! ## The table -/

namespace EditDistance

/-- The entries of a row from the given place on: `left` and `before` are the
characters up to there, the last one first. -/
def entries (left before : List Char) : List Char → List Nat
  | [] => [leastEdits left before]
  | r :: right => leastEdits left before :: entries left (r :: before) right

theorem entries_eq_cons (left before right : List Char) :
    entries left before right = leastEdits left before :: (entries left before right).tail := by
  cases right <;> rfl

/-- Each entry needs only the entries to its left, above and between. -/
theorem continueRow_entries (c : Char) (left before right : List Char) :
    continueRow c (leastEdits (c :: left) before) right (entries left before right) =
      (entries (c :: left) before right).tail := by
  induction right generalizing before with
  | nil => rfl
  | cons r right ih =>
      rw [entries, entries_eq_cons left (r :: before), continueRow, ← leastEdits_cons_cons,
        ← entries_eq_cons, ih, ← entries_eq_cons]
      rfl

theorem nextRow_entries (c : Char) (left right : List Char) :
    nextRow right (entries left [] right) c = entries (c :: left) [] right := by
  have hfirst : (entries left [] right).headD 0 + 1 = leastEdits (c :: left) [] := by
    rw [entries_eq_cons]
    simp
  simp only [nextRow, hfirst]
  rw [continueRow_entries, ← entries_eq_cons]

theorem foldl_nextRow_entries (left done right : List Char) :
    left.foldl (nextRow right) (entries done [] right) =
      entries (left.reverse ++ done) [] right := by
  induction left generalizing done with
  | nil => rfl
  | cons c left ih =>
      rw [List.foldl_cons, nextRow_entries, ih]
      simp

theorem range_eq_entries (before right : List Char) :
    List.range' before.length (right.length + 1) = entries [] before right := by
  induction right generalizing before with
  | nil => simp [entries]
  | cons r right ih =>
      rw [entries, ← ih, List.length_cons, List.range'_succ]
      simp

theorem getLastD_entries (left before right : List Char) :
    (entries left before right).getLastD 0 = leastEdits left (right.reverse ++ before) := by
  induction right generalizing before with
  | nil => rfl
  | cons r right ih =>
      have hskip : (entries left before (r :: right)).getLastD 0 =
          (entries left (r :: before) right).getLastD 0 := by
        rw [entries, entries_eq_cons left (r :: before)]
        simp only [List.getLastD_cons]
      rw [hskip, ih]
      simp

end EditDistance

theorem editDistance_eq (left right : List Char) :
    editDistance left right = leastEdits left.reverse right.reverse := by
  have hfirst : List.range (right.length + 1) = EditDistance.entries [] [] right := by
    rw [List.range_eq_range']
    exact EditDistance.range_eq_entries [] right
  unfold editDistance
  rw [hfirst, EditDistance.foldl_nextRow_entries, EditDistance.getLastD_entries]
  simp

theorem isLeast_editDistance (left right : List Char) :
    IsLeast {n | Edits n left right} (editDistance left right) := by
  rw [editDistance_eq]
  constructor
  · exact edits_reverse_iff.mp (edits_leastEdits _ _)
  · intro n hn
    exact (edits_reverse_iff.mpr hn).leastEdits_le

example : editDistance "metirc".toList "metrics".toList = 3 := by decide

/-! ## The search -/

/-- Edits of names, when ASCII capitals do not count. -/
def NameEdits (n : Nat) (name other : String) : Prop :=
  Edits n (name.toList.map Char.toLower) (other.toList.map Char.toLower)

theorem isLeast_nameDistance (name other : String) :
    IsLeast {n | NameEdits n name other} (nameDistance name other) :=
  isLeast_editDistance _ _

/-- What a suggestion has to be: the first of the candidates that take the fewest
edits, if these are few enough; none if all candidates take too many. -/
inductive IsNearest (name : String) (candidates : List String) : Option String → Prop
  | far (h : ∀ c ∈ candidates, ∀ n, NameEdits n name c → farthest < n) :
      IsNearest name candidates none
  | first {before after : List String} {best : String} {least : Nat}
      (hlist : candidates = before ++ best :: after)
      (hleast : IsLeast {n | NameEdits n name best} least) (hnear : least ≤ farthest)
      (hbefore : ∀ c ∈ before, ∀ n, NameEdits n name c → least < n)
      (hafter : ∀ c ∈ after, ∀ n, NameEdits n name c → least ≤ n) :
      IsNearest name candidates (some best)

theorem IsNearest.mem {name best : String} {candidates : List String}
    (h : IsNearest name candidates (some best)) : best ∈ candidates := by
  cases h with
  | first hlist => simp [hlist]

/-- The best of the candidates seen so far, with its distance. -/
inductive BestOf (name : String) (seen : List String) : Option (Nat × String) → Prop
  | far (h : ∀ c ∈ seen, farthest < nameDistance name c) : BestOf name seen none
  | first {before after : List String} {best : String} (hlist : seen = before ++ best :: after)
      (hnear : nameDistance name best ≤ farthest)
      (hbefore : ∀ c ∈ before, nameDistance name best < nameDistance name c)
      (hafter : ∀ c ∈ after, nameDistance name best ≤ nameDistance name c) :
      BestOf name seen (some (nameDistance name best, best))

theorem BestOf.nearer {name : String} {seen : List String} {found : Option (Nat × String)}
    (h : BestOf name seen found) (c : String) :
    BestOf name (seen ++ [c]) (nearer name found c) := by
  cases h with
  | far hfar =>
      by_cases hc : farthest < nameDistance name c
      · simp only [Text.nearer, if_pos hc]
        refine .far fun other hother => ?_
        rcases List.mem_append.mp hother with hseen | hlast
        · exact hfar other hseen
        · rwa [List.mem_singleton.mp hlast]
      · simp only [Text.nearer, if_neg hc]
        exact .first rfl (Nat.le_of_not_lt hc)
          (fun other hother => lt_of_le_of_lt (Nat.le_of_not_lt hc) (hfar other hother)) (by simp)
  | @first before after best hlist hnear hbefore hafter =>
      -- the new candidate stays behind the best one unless it is strictly nearer
      by_cases hless : nameDistance name best ≤ nameDistance name c
      · have hkept : Text.nearer name (some (nameDistance name best, best)) c =
            some (nameDistance name best, best) := by
          simp only [Text.nearer, if_pos hless, ite_self]
        rw [hkept]
        have hlonger : seen ++ [c] = before ++ best :: (after ++ [c]) := by simp [hlist]
        refine .first hlonger hnear hbefore fun other hother => ?_
        rcases List.mem_append.mp hother with hseen | hlast
        · exact hafter other hseen
        · rwa [List.mem_singleton.mp hlast]
      · have hnew : nameDistance name c < nameDistance name best := Nat.lt_of_not_le hless
        have hc : nameDistance name c ≤ farthest := hnew.le.trans hnear
        simp only [Text.nearer, if_neg hc.not_gt, if_neg hless]
        refine .first rfl hc (fun other hother => ?_) (by simp)
        rw [hlist, List.mem_append, List.mem_cons] at hother
        rcases hother with hother | rfl | hother
        · exact hnew.trans (hbefore other hother)
        · exact hnew
        · exact hnew.trans_le (hafter other hother)

theorem bestOf_foldl_nearer (name : String) (candidates : List String) :
    BestOf name candidates (candidates.foldl (nearer name) none) := by
  induction candidates using List.reverseRecOn with
  | nil => exact .far (by simp)
  | append_singleton seen c ih =>
      rw [List.foldl_append]
      exact ih.nearer c

theorem nearest?_isNearest (name : String) (candidates : List String) :
    IsNearest name candidates (nearest? name candidates) := by
  have hbest := bestOf_foldl_nearer name candidates
  have hleast : ∀ {c n}, NameEdits n name c → nameDistance name c ≤ n :=
    fun hn => (isLeast_nameDistance _ _).2 hn
  unfold nearest?
  generalize candidates.foldl (nearer name) none = found at hbest
  cases hbest with
  | far hfar =>
      exact .far fun c hc n hn => (hfar c hc).trans_le (hleast hn)
  | first hlist hnear hbefore hafter =>
      exact .first hlist (isLeast_nameDistance _ _) hnear
        (fun c hc n hn => (hbefore c hc).trans_le (hleast hn))
        (fun c hc n hn => (hafter c hc).trans (hleast hn))

end MetricSql.Text
