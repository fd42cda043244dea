/-
**Running a document again.**

A document is in order if no formula in it reads a name that its own line or a later one assigns.
Such a document may run as often as one likes: every later run shows what the first one has shown
and leaves the variables as the first one left them, whatever they held before it, and also where
assignments fail or a name is assigned more than once.

A later run starts from other variables than the first one. What carries the proof is that they
differ at most in names that the rest of the first run still stores: none of these is read before
it is stored, so line by line the two runs show the same, and what is stored is the same too.

* `Sheet.InOrder` is the condition on the lines of a document, and it can be computed;
* `runLines_congr`: runs from variables that differ in names still to be stored show the same;
* `run_again`: the second run is the first one.
-/

import Worksheet.Proofs.Sheet.Run

namespace Worksheet

namespace Sheet

/-! ### Documents in order -/

/-- No formula reads a name that its own line or a later one assigns. -/
def InOrder : List Text → Prop
  | [] => True
  | text :: others =>
    (∀ name ∈ (Line.ofText text).reads, ∀ later ∈ text :: others,
      (Line.ofText later).target? ≠ some name) ∧ InOrder others

instance decidableInOrder : (lines : List Text) → Decidable (InOrder lines)
  | [] => inferInstanceAs (Decidable True)
  | _ :: others =>
    have := decidableInOrder others
    inferInstanceAs (Decidable (_ ∧ _))

/-- The first lines of a document in order are in order. -/
theorem InOrder.of_append {front back : List Text} (inOrder : InOrder (front ++ back)) :
    InOrder front := by
  induction front with
  | nil => trivial
  | cons text others ih =>
    refine ⟨fun name isRead later isLater => ?_, ih inOrder.2⟩
    exact inOrder.1 name isRead later (List.mem_append_left back isLater)

/-! ### Two runs side by side -/

variable {scope other : Variables} {lines : List Text}

/-- **Lines in order show the same from variables that differ only in what they still store.** -/
theorem runLines_congr (inOrder : InOrder lines)
    (agree : ∀ name, name ∉ (stored (runLines scope lines).1).map Prod.fst →
      other.get? name = scope.get? name) :
    (runLines other lines).1 = (runLines scope lines).1 := by
  induction lines generalizing scope other with
  | nil => rfl
  | cons text others ih =>
    have same : (interpret other text).1 = (interpret scope text).1 := by
      refine interpret_congr fun name isRead => agree name fun isStored => ?_
      obtain ⟨later, isLater, assigns⟩ := exists_target_of_mem_stored scope isStored
      exact inOrder.1 name isRead later isLater assigns
    have later : (runLines (interpret other text).2 others).1 =
        (runLines (interpret scope text).2 others).1 := by
      refine ih inOrder.2 fun name notLater => ?_
      rw [runLines_cons, stored_cons] at agree
      rw [interpret_snd, interpret_snd, same]
      exact Variables.get?_setAll_congr agree name notLater
    rw [runLines_cons, runLines_cons, same, later]

/-- Lines in order run again as they have run before. -/
theorem runLines_again (scope : Variables) (inOrder : InOrder lines) :
    runLines (runLines scope lines).2 lines = runLines scope lines := by
  have shown : (runLines (runLines scope lines).2 lines).1 = (runLines scope lines).1 := by
    refine runLines_congr inOrder fun name notStored => ?_
    rw [runLines_snd, Variables.get?_setAll,
      (Bindings.latest?_eq_none_iff name _).mpr notStored, Option.none_or]
  refine Prod.ext shown ?_
  rw [runLines_snd (runLines scope lines).2, shown, runLines_snd, Variables.setAll_setAll]

/-- **Running a document again changes nothing.** A document in order shows the same lines in its
second run as in the first, and the variables stay as the first run has left them, in names, order
and values. -/
theorem run_again (scope : Variables) {document : Text} (inOrder : InOrder (Text.lines document)) :
    run (run scope document).2 document = run scope document :=
  runLines_again scope inOrder

/-- Variables left by earlier documents. -/
def staleScope : Variables :=
  Variables.empty.setAll [("rate".toList, .number 7), ("total".toList, .number 1)]

/-- A document that fails to assign a name, then assigns it twice and reads it. -/
def staleDocument : Text :=
  "rate = 1 / 0\nrate = 2\nrate = 4\ntotal = 50 % of 10 * rate\ntotal =".toList

/-- The second run over variables that were stale before the first one. -/
theorem run_again_stale :
    InOrder (Text.lines staleDocument) ∧
      (run staleScope staleDocument).1.map (fun line => line.result.map Result.toText) =
        [none, some "(2)".toList, some "(4)".toList, some "(20)".toList, some "20".toList] ∧
      run (run staleScope staleDocument).2 staleDocument = run staleScope staleDocument :=
  have inOrder : InOrder (Text.lines staleDocument) := by decide +kernel
  ⟨inOrder, by decide +kernel, run_again staleScope inOrder⟩

end Sheet

end Worksheet
