/-
**Substitution word by word.**

The program cuts a text into runs, replaces the runs that are names of variables and puts all
together again. From the left this is: a character that belongs to no word stays, and a word that
nothing behind it continues is replaced as a whole.

* `Text.word_induction` proves something of a text in these steps;
* `substitute_cons` and `substitute_word` are the steps of substitution;
* `Variables.TouchesPoint`: somewhere in a text a variable stands directly beside a point.
-/

import Worksheet.Formula
import Worksheet.Proofs.Expr.Scan
import Worksheet.Proofs.Text.WhiteSpace

namespace Worksheet

namespace Text

/-- A text is empty, or a character that belongs to no word and a text, or a word and a text that
does not continue it. -/
theorem word_induction {motive : Text → Prop} (nil : motive [])
    (other : ∀ c rest, isWordPart c = false → motive rest → motive (c :: rest))
    (word : ∀ word rest, word ≠ [] → (∀ c ∈ word, isWordPart c = true) →
      (∀ c ∈ rest.head?, isWordPart c = false) → motive rest → motive (word ++ rest)) :
    ∀ text, motive text
  | [] => nil
  | c :: rest => by
    cases part : isWordPart c with
    | false => exact other c rest part (word_induction nil other word rest)
    | true =>
      obtain ⟨run, behind, split, nonempty, parts, border, shorter⟩ := exists_run part rest
      rw [split]
      exact word run behind nonempty parts border (word_induction nil other word behind)
termination_by text => text.length
decreasing_by
  · exact Nat.lt_succ_self rest.length
  · exact shorter

end Text

/-! ### The runs of a text -/

/-- Between two runs a text can be cut. -/
theorem wordRuns_append {front back : Text}
    (border : ∀ c ∈ front.getLast?, ∀ d ∈ back.head?, Text.isWordPart c ≠ Text.isWordPart d) :
    wordRuns (front ++ back) = wordRuns front ++ wordRuns back :=
  Text.splitBy_append border

/-- Characters of one class are one run. -/
theorem wordRuns_uniform {run : Text} (part : Bool)
    (uniform : ∀ c ∈ run, Text.isWordPart c = part) (nonempty : run ≠ []) :
    wordRuns run = [run] :=
  Text.splitBy_uniform part uniform nonempty

namespace Variables

variable (scope : Variables)

/-! ### The steps of substitution -/

/-- Between two runs substitution can be cut. -/
theorem substitute_append {front back : Text}
    (border : ∀ c ∈ front.getLast?, ∀ d ∈ back.head?, Text.isWordPart c ≠ Text.isWordPart d) :
    scope.substitute (front ++ back) = scope.substitute front ++ scope.substitute back := by
  unfold substitute
  rw [wordRuns_append border, List.flatMap_append]

/-- Characters of one class are replaced as one run. -/
theorem substitute_run {run : Text} (part : Bool) (uniform : ∀ c ∈ run, Text.isWordPart c = part)
    (nonempty : run ≠ []) : scope.substitute run = scope.substituteRun run := by
  unfold substitute
  rw [wordRuns_uniform part uniform nonempty, List.flatMap_singleton]

/-- A run outside of words stays. -/
theorem substitute_others {run back : Text} (others : ∀ c ∈ run, Text.isWordPart c = false)
    (border : ∀ c ∈ back.head?, Text.isWordPart c = true) :
    scope.substitute (run ++ back) = run ++ scope.substitute back := by
  cases run with
  | nil => rfl
  | cons c rest =>
    have noName : Text.isName (c :: rest) = false := by
      rw [← Bool.not_eq_true]
      intro isName
      have part := Text.isWordPart_of_isName isName c List.mem_cons_self
      rw [others c List.mem_cons_self] at part
      cases part
    have stays : scope.substituteRun (c :: rest) = c :: rest := by
      rw [substituteRun, noName]
      rfl
    rw [substitute_append, substitute_run scope false others (List.cons_ne_nil _ _), stays]
    intro d isLast e isHead
    rw [others d (List.mem_of_getLast? isLast), border e isHead]
    exact Bool.false_ne_true

/-- A character that belongs to no word stays. -/
theorem substitute_cons {c : Char} (noPart : Text.isWordPart c = false) (rest : Text) :
    scope.substitute (c :: rest) = c :: scope.substitute rest := by
  have others : ∀ d ∈ rest.takeWhile (! Text.isWordPart ·), Text.isWordPart d = false := by
    intro d isIn
    simpa using List.mem_takeWhile_imp isIn
  have border : ∀ d ∈ (rest.dropWhile (! Text.isWordPart ·)).head?, Text.isWordPart d = true := by
    intro d isHead
    simpa using Text.head?_dropWhile rest d isHead
  have first : ∀ d ∈ c :: rest.takeWhile (! Text.isWordPart ·), Text.isWordPart d = false := by
    intro d isIn
    rw [List.mem_cons] at isIn
    rcases isIn with rfl | isIn
    · exact noPart
    · exact others d isIn
  have split :
      rest.takeWhile (! Text.isWordPart ·) ++ rest.dropWhile (! Text.isWordPart ·) = rest :=
    List.takeWhile_append_dropWhile
  have whole := substitute_others scope others border
  have longer := substitute_others scope first border
  rw [List.cons_append] at longer
  rw [split] at whole longer
  rw [longer, whole, List.cons_append]

/-- A word that nothing behind it continues is replaced as a whole. -/
theorem substitute_word {word rest : Text} (parts : ∀ c ∈ word, Text.isWordPart c = true)
    (nonempty : word ≠ []) (border : ∀ c ∈ rest.head?, Text.isWordPart c = false) :
    scope.substitute (word ++ rest) = scope.substituteRun word ++ scope.substitute rest := by
  rw [substitute_append, substitute_run scope true parts nonempty]
  intro c isLast d isHead
  rw [parts c (List.mem_of_getLast? isLast), border d isHead]
  exact Bool.noConfusion

/-- A text in which no word starts with a letter or an underscore stays. -/
theorem substitute_eq_self {text : Text} (noStart : ∀ c ∈ text, Text.isWordStart c = false) :
    scope.substitute text = text := by
  induction text using Text.word_induction with
  | nil => rfl
  | other c rest noPart ih =>
    rw [substitute_cons scope noPart, ih fun d isIn => noStart d (List.mem_cons_of_mem c isIn)]
  | word word rest nonempty parts border ih =>
    obtain ⟨c, others, rfl⟩ := List.exists_cons_of_ne_nil nonempty
    have noName : Text.isName (c :: others) = false := by
      rw [Text.isName, noStart c List.mem_cons_self, Bool.false_and]
    have stays : scope.substituteRun (c :: others) = c :: others := by
      rw [substituteRun, noName]
      rfl
    rw [substitute_word scope parts nonempty border, stays,
      ih fun d isIn => noStart d (List.mem_append_right _ isIn)]

/-- A character that belongs to no word is still there after substitution. -/
theorem mem_substitute {c : Char} (noPart : Text.isWordPart c = false) {text : Text}
    (isIn : c ∈ text) : c ∈ scope.substitute text := by
  induction text using Text.word_induction with
  | nil => cases isIn
  | other d rest noPart ih =>
    rw [substitute_cons scope noPart, List.mem_cons]
    exact (List.mem_cons.mp isIn).imp_right ih
  | word word rest nonempty parts border ih =>
    rw [substitute_word scope parts nonempty border, List.mem_append]
    refine Or.inr (ih ((List.mem_append.mp isIn).resolve_left fun inWord => ?_))
    rw [parts c inWord] at noPart
    cases noPart

/-! ### Variables beside a point -/

/-- Somewhere in the text the name of a variable stands with a point directly before or behind
it. -/
def TouchesPoint (text : Text) : Prop :=
  ∃ front name back, text = front ++ (name ++ back) ∧ Text.StandsAlone front name back ∧
    (scope.get? name).isSome = true ∧ (front.getLast? = some '.' ∨ back.head? = some '.')

end Variables

end Worksheet
