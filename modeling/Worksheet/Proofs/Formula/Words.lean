/-
**The words of a formula.**

A formula knows its variables by the names that stand alone in it, and by nothing else: two sheets
that hold the same values for these names give the formula the same value.

* `Text.words` lists the names in a text, and `mem_words_iff` says where they stand;
* `substitute_congr` and `evaluate_congr`: what becomes of a formula depends on the values of its
  words alone.
-/

import Worksheet.Proofs.Formula.Runs

namespace Worksheet

namespace Text

/-- The names in a text, each a maximal run of letters, digits and underscores. -/
def words (text : Text) : List Text :=
  (wordRuns text).filter isName

theorem words_append {front back : Text}
    (border : ∀ c ∈ front.getLast?, ∀ d ∈ back.head?, isWordPart c ≠ isWordPart d) :
    words (front ++ back) = words front ++ words back := by
  unfold words
  rw [wordRuns_append border, List.filter_append]

theorem words_of_isName {name : Text} (isName : isName name = true) : words name = [name] := by
  have nonempty := ne_nil_of_isName isName
  unfold words
  rw [wordRuns_uniform true (isWordPart_of_isName isName) nonempty, List.filter_singleton, isName,
    cond_true]

/-- A run of word parts is separated from what stands around it. -/
theorem border_of_mem_wordRuns {text run : Text} (isRun : run ∈ wordRuns text)
    (parts : ∀ c ∈ run, isWordPart c = true) :
    ∃ front back, text = front ++ (run ++ back) ∧
      (∀ c ∈ front.getLast?, isWordPart c = false) ∧
      ∀ c ∈ back.head?, isWordPart c = false := by
  obtain ⟨before, behind, runs⟩ := List.append_of_mem isRun
  have flat : (wordRuns text).flatten = text := List.flatten_splitBy _ _
  have chain : (wordRuns text).IsChain _ := List.isChain_getLast_head_splitBy _ text
  rw [runs, List.flatten_append, List.flatten_cons] at flat
  rw [runs, List.isChain_append, List.isChain_cons] at chain
  obtain ⟨-, ⟨meetsBehind, -⟩, meetsBefore⟩ := chain
  refine ⟨before.flatten, behind.flatten, flat.symm, ?_, ?_⟩
  · intro c isLast
    rcases List.eq_nil_or_concat' before with rfl | ⟨earlier, last, rfl⟩
    · cases isLast
    · obtain ⟨nonempty, inRun, differs⟩ := meetsBefore last (by simp) run (by simp)
      rw [parts _ (List.head_mem inRun)] at differs
      rw [List.flatten_concat, List.getLast?_append_of_ne_nil _ nonempty,
        List.getLast?_eq_some_getLast nonempty] at isLast
      cases isLast
      simpa using differs
  · intro c isHead
    cases behind with
    | nil => cases isHead
    | cons next later =>
      obtain ⟨inRun, nonempty, differs⟩ := meetsBehind next (by simp)
      rw [parts _ (List.getLast_mem inRun)] at differs
      rw [List.flatten_cons, List.head?_append_of_ne_nil _ nonempty,
        List.head?_eq_some_head nonempty] at isHead
      cases isHead
      simpa using differs

/-- The words of a text are the names that stand alone somewhere in it. -/
theorem mem_words_iff (text name : Text) :
    name ∈ words text ↔
      ∃ front back, text = front ++ (name ++ back) ∧ StandsAlone front name back := by
  constructor
  · intro isIn
    obtain ⟨isRun, isName⟩ := List.mem_filter.mp isIn
    obtain ⟨front, back, whole, before, behind⟩ :=
      border_of_mem_wordRuns isRun (isWordPart_of_isName isName)
    exact ⟨front, back, whole, isName, before, behind⟩
  · rintro ⟨front, back, rfl, isName, before, behind⟩
    have parts := isWordPart_of_isName isName
    rw [words_append, words_append, words_of_isName isName]
    · simp
    · intro c isLast d isHead
      rw [parts c (List.mem_of_getLast? isLast), behind d isHead]
      exact Bool.noConfusion
    · intro c isLast d isHead
      have part := forall_head?_of_forall_mem (ne_nil_of_isName isName) parts _ d isHead
      rw [before c isLast, part]
      exact Bool.noConfusion

end Text

namespace Variables

variable {scope other : Variables}

/-- Only the words of a text are looked up in it. -/
theorem substitute_congr {text : Text}
    (agree : ∀ name ∈ Text.words text, other.get? name = scope.get? name) :
    other.substitute text = scope.substitute text := by
  refine List.flatMap_congr fun run isRun => ?_
  unfold substituteRun
  cases isName : Text.isName run with
  | false => rfl
  | true => rw [agree run (List.mem_filter.mpr ⟨isRun, isName⟩)]

/-- A formula depends on the values of its words, as they are once percentages are spelled out. -/
theorem evaluate_congr {formula : Text}
    (agree : ∀ name ∈ Text.words (spellOutPercentages formula),
      other.get? name = scope.get? name) :
    other.evaluate formula = scope.evaluate formula := by
  unfold evaluate
  rw [substitute_congr agree]

end Variables

end Worksheet
