/-
**Replacing the places that a pattern matches.**

A pattern looks at the start of a text and says how many characters it matches there and what to
put in their place. Replacing goes once from left to right: the first match counts, what was
matched is skipped, and what was put in is not looked at again.
-/

import Worksheet.Text.Basic

namespace Worksheet

namespace Text

/-- A match at the start of a text. -/
structure Match where
  /-- The number of characters matched. -/
  length : Nat
  /-- What takes their place. -/
  replacement : Text
deriving DecidableEq

/-- Replaces the matches in a text whose first `skipped` characters belong to a match that is
replaced already; `done` is the result so far, in reverse. -/
def replaceFrom (pattern : Text → Option Match) (skipped : Nat) (done : Text) : Text → Text
  | [] => done.reverse
  | c :: rest =>
    match skipped with
    | skipped + 1 => replaceFrom pattern skipped done rest
    | 0 =>
      match pattern (c :: rest) with
      | some found =>
        replaceFrom pattern (found.length - 1) (found.replacement.reverse ++ done) rest
      | none => replaceFrom pattern 0 (c :: done) rest

/-- Replaces all places that the pattern matches, in one pass from left to right. -/
def replaceAll (pattern : Text → Option Match) (text : Text) : Text :=
  replaceFrom pattern 0 [] text

/-! ### Small laws -/

/-- What is done already stays in front. -/
theorem replaceFrom_done (pattern : Text → Option Match) (skipped : Nat) (done text : Text) :
    replaceFrom pattern skipped done text =
      done.reverse ++ replaceFrom pattern skipped [] text := by
  induction text generalizing skipped done with
  | nil => simp [replaceFrom]
  | cons c rest ih =>
    cases skipped with
    | succ skipped => simpa [replaceFrom] using ih skipped done
    | zero =>
      simp only [replaceFrom]
      cases pattern (c :: rest) with
      | none =>
        simp only
        rw [ih 0 (c :: done), ih 0 [c]]
        simp
      | some found =>
        simp only
        rw [ih _ (found.replacement.reverse ++ done), ih _ (found.replacement.reverse ++ [])]
        simp

/-- Characters of a match that is replaced already are passed over. -/
theorem replaceFrom_skipped (pattern : Text → Option Match) {skipped : Nat} (done : Text)
    {text : Text} (covered : text.length ≤ skipped) :
    replaceFrom pattern skipped done text = done.reverse := by
  induction text generalizing skipped with
  | nil => rfl
  | cons c rest ih =>
    cases skipped with
    | zero => cases covered
    | succ skipped => exact ih (Nat.le_of_succ_le_succ covered)

/-- Where the pattern does not match, the text stays as it is. -/
theorem replaceAll_append {pattern : Text → Option Match} {front rest : Text}
    (absent : ∀ part, part <:+ front → part ≠ [] → pattern (part ++ rest) = none) :
    replaceAll pattern (front ++ rest) = front ++ replaceAll pattern rest := by
  induction front with
  | nil => rfl
  | cons c others ih =>
    have later := ih fun part isEnd => absent part (isEnd.trans (List.suffix_cons c others))
    have here := absent (c :: others) List.suffix_rfl (List.cons_ne_nil _ _)
    rw [List.cons_append] at here ⊢
    rw [replaceAll, replaceFrom, here]
    simp only
    rw [replaceFrom_done]
    simpa [replaceAll] using later

/-- A text in which the pattern matches nowhere stays as it is. -/
theorem replaceAll_eq_self (pattern : Text → Option Match) (text : Text)
    (absent : ∀ rest, rest <:+ text → pattern rest = none) : replaceAll pattern text = text := by
  have whole : replaceAll pattern (text ++ []) = text ++ replaceAll pattern [] :=
    replaceAll_append fun part isEnd _ => by rw [List.append_nil, absent part isEnd]
  have empty : replaceAll pattern [] = [] := rfl
  rwa [empty, List.append_nil] at whole

/-- Text behind that no match reaches stays as it is. -/
theorem replaceAll_append_left {pattern : Text → Option Match} {tail : Text}
    (bounded : ∀ part found, pattern part = some found → found.length ≤ part.length)
    (unreached : ∀ part, part ≠ [] → pattern (part ++ tail) = pattern part)
    (absent : ∀ part, part <:+ tail → pattern part = none) (text : Text) :
    replaceAll pattern (text ++ tail) = replaceAll pattern text ++ tail := by
  have passed (skipped : Nat) (done : Text) (inside : skipped ≤ text.length) :
      replaceFrom pattern skipped done (text ++ tail) =
        replaceFrom pattern skipped done text ++ tail := by
    induction text generalizing skipped done with
    | nil =>
      obtain rfl := Nat.le_zero.mp inside
      rw [List.nil_append, replaceFrom_done]
      exact congrArg (done.reverse ++ ·) (replaceAll_eq_self pattern tail absent)
    | cons c rest ih =>
      have here := unreached (c :: rest) (List.cons_ne_nil _ _)
      rw [List.cons_append] at here ⊢
      cases skipped with
      | succ skipped => exact ih skipped done (Nat.le_of_succ_le_succ inside)
      | zero =>
        rw [replaceFrom, replaceFrom, here]
        cases matched : pattern (c :: rest) with
        | none => exact ih 0 _ (Nat.zero_le _)
        | some found =>
          have length := bounded _ found matched
          rw [List.length_cons] at length
          exact ih _ _ (Nat.sub_le_of_le_add length)
  exact passed 0 [] (Nat.zero_le _)

/-- A text that the pattern matches as a whole is replaced. -/
theorem replaceAll_of_match {pattern : Text → Option Match} {text replacement : Text}
    (nonempty : text ≠ []) (found : pattern text = some ⟨text.length, replacement⟩) :
    replaceAll pattern text = replacement := by
  cases text with
  | nil => exact absurd rfl nonempty
  | cons c rest =>
    rw [replaceAll, replaceFrom, found]
    simp only
    rw [replaceFrom_skipped pattern _ (by simp)]
    simp

end Text

end Worksheet
