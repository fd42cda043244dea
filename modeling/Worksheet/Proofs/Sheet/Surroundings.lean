/-
**White space around a line.**

What stands around a line and is white space belongs to none of its parts but a formula, and there
it changes no value. So each line has the same result and stores the same value with white space
around it, and so has each document, for instance with a carriage return at the end of its lines.

* `Line.ofText_around`: a line is of the same kind with white space around it, and the white space
  goes to the formula;
* `Sheet.interpret_around` is about one line, `Sheet.runLines_of_sameInside` about many;
* `Sheet.run_surrounded` is about one line and about documents with carriage returns.
-/

import Worksheet.Proofs.Calendar.Reading
import Worksheet.Proofs.Formula.Surroundings
import Worksheet.Proofs.Line
import Worksheet.Proofs.Sheet.Run

namespace Worksheet

variable (padding : Padding) {tail : Text}

/-- The text with a carriage return in front of every line feed. -/
def Text.withReturns (text : Text) : Text :=
  text.flatMap fun c => if c == '\n' then ['\r', '\n'] else [c]

/-! ### The kind of a line -/

namespace Line

/-- What a reader finds behind an equals sign. -/
def behindSign? {α : Type} (read : Text → Option α) (text : Text) : Option α :=
  match text with
  | '=' :: behind => read behind
  | _ => none

/-- The formula of an assignment with this name, behind its equals sign. -/
def formula? (name behind : Text) : Option (Text × Text) :=
  let formula := Text.trimStart behind
  if Text.isName name && !formula.isEmpty && !formula.contains '\n' then some (name, formula)
  else none

theorem assignment?_eq (text : Text) :
    assignment? text = behindSign? (formula? ((Text.trimStart text).takeWhile Text.isWordPart))
      (Text.trimStart ((Text.trimStart text).dropWhile Text.isWordPart)) :=
  rfl

/-- A calculation is read from its end. -/
theorem calculation?_eq (text : Text) :
    calculation? text =
      behindSign? (fun before => some before.reverse) (Text.trimStart text.reverse) :=
  rfl

/-- White space is no equals sign, so only the reader behind the sign meets it. -/
theorem behindSign?_append_blank {α : Type} {read : Text → Option α} {extend : α → α}
    (tailBlank : ∀ c ∈ tail, Text.isBlank c = true)
    (leaves : ∀ behind, read (behind ++ tail) = (read behind).map extend) (text : Text) :
    behindSign? read (text ++ tail) = (behindSign? read text).map extend := by
  have noSign {rest : Text} (other : ∀ behind, rest ≠ '=' :: behind) :
      behindSign? read rest = none := by
    unfold behindSign?
    split
    next behind => exact absurd rfl (other behind)
    next => rfl
  by_cases sign : ∃ behind, text = '=' :: behind
  · obtain ⟨behind, rfl⟩ := sign
    exact leaves behind
  · rw [not_exists] at sign
    rw [noSign sign, noSign (Text.append_ne_cons tailBlank rfl sign)]
    rfl

theorem formula?_append_blank (tailBlank : ∀ c ∈ tail, Text.isBlank c = true)
    (noFeed : '\n' ∉ tail) (name behind : Text) :
    formula? name (behind ++ tail) = (formula? name behind).map (Prod.map id (· ++ tail)) := by
  unfold formula?
  rcases Text.trimStart_append_cases tailBlank behind with ⟨nothing, nothing'⟩ | ⟨nonempty, split⟩
  · simp [nothing, nothing']
  · have feed : (Text.trimStart behind ++ tail).contains '\n' =
        (Text.trimStart behind).contains '\n' := by
      simp [noFeed]
    rw [split]
    dsimp only
    rw [feed, List.isEmpty_eq_false_iff.mpr nonempty,
      List.isEmpty_eq_false_iff.mpr (List.append_ne_nil_of_left_ne_nil nonempty tail)]
    split <;> rfl

/-- White space around an assignment is cut away in front and goes to the formula behind. -/
theorem assignment?_around (noFeed : '\n' ∉ padding.tail) (text : Text) :
    assignment? (padding.around text) =
      (assignment? text).map (Prod.map id (· ++ padding.tail)) := by
  have border := Text.border_of_isBlank padding.tailBlank Text.isWordPart_eq_false_of_isBlank
  rw [assignment?_eq, assignment?_eq, Padding.around, Text.trimStart_around padding.leadBlank]
  rcases Text.trimStart_append_cases padding.tailBlank text with ⟨nothing, nothing'⟩ | ⟨-, split⟩
  · rw [nothing, nothing']
    rfl
  · rw [split, Text.takeWhile_append_left border, Text.dropWhile_append_left border]
    exact Text.read_trimStart_append padding.tailBlank rfl (behindSign?_append_blank
      padding.tailBlank (formula?_append_blank padding.tailBlank noFeed _)) _

/-- White space around a calculation goes to the formula in front and is cut away behind. -/
theorem calculation?_around (text : Text) :
    calculation? (padding.around text) = (calculation? text).map (padding.lead ++ ·) := by
  have reversed {blanks : Text} (isBlank : ∀ c ∈ blanks, Text.isBlank c = true) :
      ∀ c ∈ blanks.reverse, Text.isBlank c = true := fun c isIn =>
    isBlank c (List.mem_reverse.mp isIn)
  rw [calculation?_eq, calculation?_eq, Padding.around, List.reverse_append, List.reverse_append,
    List.append_assoc, Text.trimStart_around (reversed padding.tailBlank)]
  refine Text.read_trimStart_append (reversed padding.leadBlank) rfl
    (behindSign?_append_blank (reversed padding.leadBlank) fun before => ?_) _
  rw [List.reverse_append, List.reverse_reverse]
  rfl

/-- The line with white space around its text. -/
def around : Line → Line
  | assignment name formula => assignment name (formula ++ padding.tail)
  | calculation formula => calculation (padding.lead ++ formula)
  | line => line

/-- **A line is of the same kind with white space around it.** -/
theorem ofText_around (noFeed : '\n' ∉ padding.tail) (text : Text) :
    ofText (padding.around text) = (ofText text).around padding := by
  have blank : (padding.around text).all Text.isBlank = text.all Text.isBlank := by
    rw [Padding.around, List.all_append, List.all_append, List.all_eq_true.mpr padding.leadBlank,
      List.all_eq_true.mpr padding.tailBlank, Bool.true_and, Bool.and_true]
  have request : ConversionRequest.ofText? (padding.around text) =
      ConversionRequest.ofText? text := by
    unfold ConversionRequest.ofText? Padding.around
    rw [Text.trim_around padding.leadBlank padding.tailBlank]
  unfold ofText
  rw [blank, request, assignment?_around padding noFeed, calculation?_around]
  split
  · rfl
  · cases ConversionRequest.ofText? text with
    | some request => rfl
    | none =>
      cases assignment? text with
      | some parts => rfl
      | none => cases calculation? text <;> rfl

end Line

namespace Sheet

/-! ### One line -/

theorem assigned?_append_blank (scope : Variables) (tailBlank : ∀ c ∈ tail, Text.isBlank c = true)
    (formula : Text) : assigned? scope (formula ++ tail) = assigned? scope formula := by
  unfold assigned?
  rw [shiftedDate?_append_blank tailBlank]
  rcases Variables.evaluate_around_cases ⟨[], tail, List.forall_mem_nil _, tailBlank⟩ scope formula
    with ⟨x, inner, outer⟩ | ⟨_, _, inner, outer⟩ <;>
  · rw [Padding.around, List.nil_append] at outer
    rw [inner, outer]

/-- **White space around a line does not change what it does.** -/
theorem interpret_around (scope : Variables) (noFeed : '\n' ∉ padding.tail) (line : Text) :
    interpret scope (padding.around line) = interpret scope line := by
  unfold interpret
  rw [Line.ofText_around padding noFeed]
  cases Line.ofText line with
  | blank => rfl
  | note => rfl
  | conversion request => rfl
  | assignment name formula =>
    dsimp only [Line.around]
    rw [assigned?_append_blank scope padding.tailBlank]
  | calculation formula =>
    dsimp only [Line.around]
    rcases Variables.evaluate_around_cases
        ⟨padding.lead, [], padding.leadBlank, List.forall_mem_nil _⟩ scope formula with
      ⟨x, inner, outer⟩ | ⟨_, _, inner, outer⟩ <;>
    · rw [Padding.around, List.append_nil] at outer
      rw [inner, outer]

/-! ### Many lines -/

/-- The second line is the first one with white space around it. -/
def SameInside (line other : Text) : Prop :=
  ∃ padding : Padding, '\n' ∉ padding.tail ∧ other = padding.around line

/-- Lines have the same results, and store the same, as lines with white space around them. -/
theorem runLines_of_sameInside (scope : Variables) {lines others : List Text}
    (same : List.Forall₂ SameInside lines others) :
    (runLines scope others).1.map AnnotatedLine.result =
        (runLines scope lines).1.map AnnotatedLine.result ∧
      (runLines scope others).2 = (runLines scope lines).2 := by
  induction same generalizing scope with
  | nil => exact ⟨rfl, rfl⟩
  | @cons line other lines others first later ih =>
    obtain ⟨padding, noFeed, rfl⟩ := first
    obtain ⟨results, last⟩ := ih (interpret scope line).2
    rw [runLines_cons, runLines_cons, interpret_around padding scope noFeed, List.map_cons,
      List.map_cons, results]
    exact ⟨rfl, last⟩

/-! ### Carriage returns -/

/-- Where line feeds get a carriage return in front of them, lines get one at their end. -/
theorem lines_withReturns (document : Text) :
    List.Forall₂ SameInside (Text.lines document) (Text.lines (Text.withReturns document)) := by
  have returned : List.Forall₂ (fun line other => other = line ∨ other = line ++ ['\r'])
      (Text.lines document) (Text.lines (Text.withReturns document)) := by
    induction document with
    | nil => exact .cons (Or.inl rfl) .nil
    | cons c rest ih =>
      by_cases feed : c = '\n'
      · subst feed
        exact .cons (Or.inr rfl) ih
      · have others : Text.withReturns (c :: rest) = c :: Text.withReturns rest := by
          simp [Text.withReturns, feed]
        rw [others, Text.lines_cons, Text.lines_cons, if_neg (by simpa using feed),
          if_neg (by simpa using feed)]
        generalize Text.lines rest = lines, Text.lines (Text.withReturns rest) = others at ih ⊢
        cases ih with
        | nil => exact .cons (Or.inl rfl) .nil
        | cons first later => exact .cons (first.imp (congrArg (c :: ·)) (congrArg (c :: ·))) later
  refine returned.imp fun line other same => ?_
  rcases same with rfl | rfl
  · exact ⟨⟨[], [], List.forall_mem_nil _, List.forall_mem_nil _⟩, List.not_mem_nil,
      (List.append_nil _).symm⟩
  · exact ⟨⟨[], ['\r'], List.forall_mem_nil _, List.forall_mem_singleton.mpr rfl⟩, by decide, rfl⟩

/-- **White space around a line does not matter.** With white space around it, and no line feed
behind it, a line has the same result and leaves the same variables; and so do the lines of a
document with carriage returns in front of its line feeds. -/
theorem run_surrounded (scope : Variables) :
    (∀ lead line tail : Text, (∀ c ∈ lead, Text.isBlank c = true) →
      (∀ c ∈ tail, Text.isBlank c = true) → '\n' ∉ tail →
        interpret scope (lead ++ (line ++ tail)) = interpret scope line) ∧
    ∀ document : Text,
      (run scope (Text.withReturns document)).1.map AnnotatedLine.result =
          (run scope document).1.map AnnotatedLine.result ∧
        (run scope (Text.withReturns document)).2 = (run scope document).2 :=
  ⟨fun _ line _ leadBlank tailBlank noFeed =>
      interpret_around ⟨_, _, leadBlank, tailBlank⟩ scope noFeed line,
    fun document => runLines_of_sameInside scope (lines_withReturns document)⟩

/-- An assignment with an ideographic space in front of it and a carriage return behind it, and the
same assignment in a document with carriage returns. -/
theorem run_surrounded_dueDate :
    interpret Variables.empty
        ("\u3000 ".toList ++ ("due = 2024-01-31 + 1 day".toList ++ "\t\r".toList)) =
      interpret Variables.empty "due = 2024-01-31 + 1 day".toList ∧
    (interpret Variables.empty "due = 2024-01-31 + 1 day".toList).1 =
      some (.stored (.date ⟨2024, 2, 1, by decide⟩)) ∧
    (run Variables.empty "due = 2024-01-31 + 1 day\r\nor later".toList).1.map
        AnnotatedLine.result = [some (.stored (.date ⟨2024, 2, 1, by decide⟩)), none] := by
  obtain ⟨lines, documents⟩ := run_surrounded Variables.empty
  refine ⟨lines _ _ _ ?_ ?_ ?_, rfl,
    (documents "due = 2024-01-31 + 1 day\nor later".toList).1.trans ?_⟩
  · exact List.all_eq_true.mp rfl
  · exact List.all_eq_true.mp rfl
  · decide
  · rfl

end Sheet

end Worksheet
