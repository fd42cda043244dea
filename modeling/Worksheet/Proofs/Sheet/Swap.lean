/-
**Lines that do not depend on each other.**

Two lines are independent if neither reads a name that the other assigns and they do not assign the
same name. Then it makes no difference which of them comes first: each shows what it would show on
its own, every other line shows the same, and in the end every name has the same value. Only names
that the two lines bind for the first time change places.

Behind the two lines the variables of the two runs hold the same values in another order. No line
can tell the difference, as it looks names up one by one, so the runs stay together from there on.

* `Line.Independent` is the condition on two lines, and it can be computed;
* `runLines_pair`: a line shows the same in front of an independent one as behind it;
* `runLines_congr_of_get?_eq`: lines show the same over variables with the same values;
* `run_swap`: a document before and behind swapping two lines.
-/

import Worksheet.Proofs.Sheet.Run

namespace Worksheet

namespace Line

/-- Neither line reads a name that the other assigns, and they do not assign the same name. -/
structure Independent (first second : Line) : Prop where
  firstReads : ∀ name ∈ first.reads, second.target? ≠ some name
  secondReads : ∀ name ∈ second.reads, first.target? ≠ some name
  targets : ∀ name ∈ first.target?, second.target? ≠ some name

theorem Independent.symm {first second : Line} (independent : first.Independent second) :
    second.Independent first where
  firstReads := independent.secondReads
  secondReads := independent.firstReads
  targets name isTarget isTargetToo := independent.targets name isTargetToo isTarget

instance (first second : Line) : Decidable (Independent first second) :=
  decidable_of_iff
    ((∀ name ∈ first.reads, second.target? ≠ some name) ∧
      (∀ name ∈ second.reads, first.target? ≠ some name) ∧
      ∀ name ∈ first.target?, second.target? ≠ some name)
    ⟨fun ⟨firstReads, secondReads, targets⟩ => ⟨firstReads, secondReads, targets⟩,
      fun ⟨firstReads, secondReads, targets⟩ => ⟨firstReads, secondReads, targets⟩⟩

end Line

namespace Sheet

/-- A line as a run shows it that starts with it. -/
def shown (scope : Variables) (text : Text) : AnnotatedLine :=
  ⟨text, (interpret scope text).1⟩

variable {scope other : Variables} {first second : Text}

/-- Variables with the same values show the same lines. -/
theorem runLines_congr_of_get?_eq (same : ∀ name, other.get? name = scope.get? name)
    (lines : List Text) : (runLines other lines).1 = (runLines scope lines).1 := by
  induction lines generalizing scope other with
  | nil => rfl
  | cons text others ih =>
    have shown : (interpret other text).1 = (interpret scope text).1 :=
      interpret_congr fun name _ => same name
    rw [runLines_cons, runLines_cons, shown, ih]
    intro name
    rw [interpret_snd, interpret_snd, shown, Variables.get?_setAll, Variables.get?_setAll, same]

/-- Variables with the same values still have the same values behind some lines. -/
theorem get?_runLines_congr (same : ∀ name, other.get? name = scope.get? name) (lines : List Text)
    (name : Text) : (runLines other lines).2.get? name = (runLines scope lines).2.get? name := by
  rw [runLines_snd other, runLines_snd scope, runLines_congr_of_get?_eq same,
    Variables.get?_setAll, Variables.get?_setAll, same]

/-- A line changes no name but the one that it assigns. -/
theorem get?_interpret_of_ne {text name : Text} (other : (Line.ofText text).target? ≠ some name) :
    (interpret scope text).2.get? name = scope.get? name := by
  rcases interpret_cases scope text with ⟨assigned, formula, value, kind, -, stores⟩ | ⟨-, same⟩
  · rw [stores, Variables.get?_set, if_neg]
    rintro rfl
    rw [kind] at other
    exact other rfl
  · rw [same]

/-- Two lines of which the second does not read what the first assigns show what each shows on its
own. -/
theorem runLines_pair
    (apart : ∀ name ∈ (Line.ofText second).reads, (Line.ofText first).target? ≠ some name) :
    runLines scope [first, second] =
      ([shown scope first, shown scope second],
        scope.setAll ((shown scope first).binding?.toList ++
          (shown scope second).binding?.toList)) := by
  have later : (interpret (interpret scope first).2 second).1 = (interpret scope second).1 :=
    interpret_congr fun name isRead => get?_interpret_of_ne (apart name isRead)
  rw [runLines_cons, runLines_cons, runLines_nil, later, interpret_snd _ second, later,
    interpret_snd scope first, ← Variables.setAll_append]
  rfl

/-- What two lines store that do not assign the same name has distinct names. -/
theorem nodup_bindings
    (targets : ∀ name ∈ (Line.ofText first).target?, (Line.ofText second).target? ≠ some name) :
    (((shown scope first).binding?.toList ++ (shown scope second).binding?.toList).map
      Prod.fst).Nodup := by
  cases stores : (shown scope first).binding? with
  | none => cases (shown scope second).binding? <;> simp
  | some binding =>
    cases storesToo : (shown scope second).binding? with
    | none => simp
    | some bindingToo =>
      have assigns := ((AnnotatedLine.binding?_eq_some_iff _ _ _).mp stores).1
      have assignsToo := ((AnnotatedLine.binding?_eq_some_iff _ _ _).mp storesToo).1
      have different : binding.1 ≠ bindingToo.1 := fun same =>
        targets binding.1 assigns (same ▸ assignsToo)
      simpa using different

/-- The names that two lines bind for the first time, in the order of the lines. -/
def newNames (scope : Variables) (first second : Text) : List Text :=
  (((shown scope first).binding?.toList ++ (shown scope second).binding?.toList).map
    Prod.fst).filter (· ∉ scope.names)

theorem newNames_swap (scope : Variables) (first second : Text) :
    newNames scope second first = (newNames scope first second).reverse := by
  unfold newNames
  rw [← List.filter_reverse, ← List.map_reverse, List.reverse_append]
  cases (shown scope first).binding? <;> cases (shown scope second).binding? <;> rfl

theorem names_runLines_pair (scope : Variables)
    (independent : (Line.ofText first).Independent (Line.ofText second)) :
    (runLines scope [first, second]).2.names = scope.names ++ newNames scope first second := by
  rw [runLines_pair independent.secondReads,
    Variables.names_setAll_of_nodup _ _ (nodup_bindings independent.targets), newNames]

theorem get?_runLines_pair_swap (scope : Variables)
    (independent : (Line.ofText first).Independent (Line.ofText second)) (name : Text) :
    (runLines scope [second, first]).2.get? name =
      (runLines scope [first, second]).2.get? name := by
  rw [runLines_pair independent.secondReads, runLines_pair independent.firstReads]
  exact scope.get?_setAll_append_comm (nodup_bindings independent.targets) name

/-! ### Many lines -/

/-- Variables with the same values and the same names in another order stay so behind lines. -/
theorem names_runLines_congr (same : ∀ name, other.get? name = scope.get? name)
    (names : ∀ name, name ∈ other.names ↔ name ∈ scope.names) (lines : List Text) :
    ∃ later, (runLines scope lines).2.names = scope.names ++ later ∧
      (runLines other lines).2.names = other.names ++ later := by
  refine ⟨(((stored (runLines scope lines).1).map Prod.fst).filter
    (· ∉ scope.names)).eraseDups, ?_, ?_⟩
  · rw [runLines_snd, Variables.names_setAll]
  · rw [runLines_snd, Variables.names_setAll, runLines_congr_of_get?_eq same]
    simp only [names]

/-- A document with two lines swapped has the lines of the document, but for these two. -/
theorem lines_unlines_swap {document : Text} {front back : List Text}
    (shape : Text.lines document = front ++ first :: second :: back) :
    Text.lines (Text.unlines (front ++ second :: first :: back)) =
      front ++ second :: first :: back := by
  refine Text.lines_unlines (by simp) fun line isLine => ?_
  have inDocument : line ∈ Text.lines document := by
    rw [shape]
    exact ((List.Perm.swap first second back).append_left front).mem_iff.mp isLine
  exact Text.feed_notMem_of_mem_lines inDocument

/-- A run through some lines between others. -/
theorem runLines_between (scope : Variables) (front middle back : List Text) :
    let before := (runLines scope front).2
    let behind := (runLines before middle).2
    runLines scope (front ++ (middle ++ back)) =
      ((runLines scope front).1 ++ ((runLines before middle).1 ++ (runLines behind back).1),
        (runLines behind back).2) := by
  rw [runLines_append, runLines_append]

/-- **Independent lines can be swapped.** Let two adjacent lines of a document be independent. With
the two lines swapped the document shows what it has shown before, with these two lines swapped, and
leaves the same value for every name. The names stand in the same order, but for those that the two
lines bind for the first time. -/
theorem run_swap (scope : Variables) {document : Text} {front back : List Text}
    (shape : Text.lines document = front ++ first :: second :: back)
    (independent : (Line.ofText first).Independent (Line.ofText second)) :
    let swapped := Text.unlines (front ++ second :: first :: back)
    let middle := (runLines scope front).2
    ∃ behind later,
      (run scope document).1 =
        (runLines scope front).1 ++ shown middle first :: shown middle second :: behind ∧
      (run scope swapped).1 =
        (runLines scope front).1 ++ shown middle second :: shown middle first :: behind ∧
      (∀ name, (run scope swapped).2.get? name = (run scope document).2.get? name) ∧
      (run scope document).2.names = middle.names ++ newNames middle first second ++ later ∧
      (run scope swapped).2.names =
        middle.names ++ (newNames middle first second).reverse ++ later := by
  intro swapped middle
  have values := get?_runLines_pair_swap middle independent
  have names := names_runLines_pair middle independent
  have namesSwapped := names_runLines_pair middle independent.symm
  rw [newNames_swap] at namesSwapped
  obtain ⟨later, after, afterSwapped⟩ := names_runLines_congr values
    (fun name => by rw [names, namesSwapped]; simp) back
  have same := runLines_congr_of_get?_eq values back
  have runDocument : run scope document = runLines scope (front ++ ([first, second] ++ back)) := by
    rw [run, shape]
    rfl
  have runSwapped : run scope swapped = runLines scope (front ++ ([second, first] ++ back)) := by
    rw [run, lines_unlines_swap shape]
    rfl
  refine ⟨(runLines (runLines middle [first, second]).2 back).1, later, ?_, ?_, ?_, ?_, ?_⟩
  · rw [runDocument, runLines_between, runLines_pair independent.secondReads]
    rfl
  · rw [runSwapped, runLines_between, same, runLines_pair independent.firstReads]
    rfl
  · intro name
    rw [runDocument, runSwapped, runLines_between, runLines_between]
    exact get?_runLines_congr values back name
  · rw [runDocument, runLines_between, ← names, after]
  · rw [runSwapped, runLines_between, ← namesSwapped, afterSwapped]

/-- A document that assigns two names for the first time, one of them to a date, and reads both. -/
def dueDocument : Text :=
  "rate = 50 % of 4\ncost = rate * 3\ndue = 2024-01-31 + 1 month\ncost - due =".toList

/-- The assignments of a number and of a date change places. -/
theorem run_swap_due :
    Text.lines dueDocument = ["rate = 50 % of 4".toList] ++ "cost = rate * 3".toList ::
        "due = 2024-01-31 + 1 month".toList :: ["cost - due =".toList] ∧
      (Line.ofText "cost = rate * 3".toList).Independent
        (Line.ofText "due = 2024-01-31 + 1 month".toList) ∧
      (run .empty (Text.unlines (["rate = 50 % of 4".toList] ++
        "due = 2024-01-31 + 1 month".toList :: "cost = rate * 3".toList ::
          ["cost - due =".toList]))).2.get? "due".toList =
        (run .empty dueDocument).2.get? "due".toList := by
  have shape : Text.lines dueDocument = ["rate = 50 % of 4".toList] ++ "cost = rate * 3".toList ::
      "due = 2024-01-31 + 1 month".toList :: ["cost - due =".toList] := by
    decide +kernel
  have independent : (Line.ofText "cost = rate * 3".toList).Independent
      (Line.ofText "due = 2024-01-31 + 1 month".toList) := by
    decide +kernel
  obtain ⟨behind, later, -, -, values, -⟩ := run_swap .empty shape independent
  exact ⟨shape, independent, values _⟩

end Sheet

end Worksheet
