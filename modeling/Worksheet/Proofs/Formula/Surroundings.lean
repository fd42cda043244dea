/-
**White space around a formula.**

A formula goes through passes that each have their own way with white space. A percentage is found
before it and behind it as it is without it, and so is a word; both passes leave it at the ends of
the text that they put together, where the reader of tokens passes over it. So white space around a
formula comes through to the last reader, and is lost there.

* `Padding` is white space around a text, `Padding.around` the text with it;
* `PercentForm.spellOut_around` and `Variables.substitute_padded`: what the passes put together has
  the white space around it;
* `Token.reads_around_iff`: the tokens are the same with it;
* `Variables.evaluate_around_eq_ok_iff`: and so is the value.
-/

import Worksheet.Proofs.Expr.Finite
import Worksheet.Proofs.Expr.MaximalMunch
import Worksheet.Proofs.Formula.Runs
import Worksheet.Proofs.Percent.OfName

namespace Worksheet

/-- White space in front of a text and behind it. -/
structure Padding where
  lead : Text
  tail : Text
  leadBlank : ∀ c ∈ lead, Text.isBlank c = true
  tailBlank : ∀ c ∈ tail, Text.isBlank c = true

/-- The text with the white space around it. -/
def Padding.around (padding : Padding) (text : Text) : Text :=
  padding.lead ++ (text ++ padding.tail)

variable (padding : Padding) {tail : Text}

/-! ### Percentages -/

/-- The numeral where a point stands behind the first digits. -/
theorem takeNumeral?_point {text behind : Text}
    (rest : text.dropWhile Char.isDigit = '.' :: behind) :
    takeNumeral? text =
      if (behind.takeWhile Char.isDigit).isEmpty then
        if (text.takeWhile Char.isDigit).isEmpty then none
        else some (text.takeWhile Char.isDigit, '.' :: behind)
      else some (text.takeWhile Char.isDigit ++ '.' :: behind.takeWhile Char.isDigit,
        behind.dropWhile Char.isDigit) := by
  unfold takeNumeral?
  rw [rest]
  rfl

/-- The numeral where no point stands behind the first digits. -/
theorem takeNumeral?_plain {text : Text}
    (rest : ∀ behind, text.dropWhile Char.isDigit ≠ '.' :: behind) :
    takeNumeral? text =
      if (text.takeWhile Char.isDigit).isEmpty then none
      else some (text.takeWhile Char.isDigit, text.dropWhile Char.isDigit) := by
  unfold takeNumeral?
  dsimp only
  split
  next behind point => exact absurd point (rest behind)
  next => rfl

/-- A numeral ends before white space. -/
theorem takeNumeral?_append_blank (tailBlank : ∀ c ∈ tail, Text.isBlank c = true) (text : Text) :
    takeNumeral? (text ++ tail) = (takeNumeral? text).map (Prod.map id (· ++ tail)) := by
  have border := Text.border_of_isBlank tailBlank Text.isDigit_eq_false_of_isBlank
  have whole := Text.takeWhile_append_left border text
  have later := Text.dropWhile_append_left border text
  by_cases point : ∃ behind, text.dropWhile Char.isDigit = '.' :: behind
  · obtain ⟨behind, rest⟩ := point
    rw [rest, List.cons_append] at later
    rw [takeNumeral?_point rest, takeNumeral?_point later, whole,
      Text.takeWhile_append_left border, Text.dropWhile_append_left border]
    split
    next => split <;> rfl
    next => rfl
  · rw [not_exists] at point
    have noPoint := Text.append_ne_cons tailBlank rfl point
    rw [← later] at noPoint
    rw [takeNumeral?_plain point, takeNumeral?_plain noPoint, whole, later]
    split <;> rfl

/-- A beginning without white space is found before white space only. -/
theorem dropExact?_append_blank (tailBlank : ∀ c ∈ tail, Text.isBlank c = true) {beginning : Text}
    (noBlank : ∀ c ∈ beginning, Text.isBlank c = false) (text : Text) :
    dropExact? beginning (text ++ tail) = (dropExact? beginning text).map (· ++ tail) := by
  ext rest
  rw [dropExact?_eq_some_iff, Option.map_eq_some_iff]
  simp only [dropExact?_eq_some_iff]
  constructor
  · intro same
    obtain ⟨between, rfl, rfl⟩ := Text.exists_of_append_eq tailBlank noBlank same
    exact ⟨between, rfl, rfl⟩
  · rintro ⟨rest, rfl, rfl⟩
    exact List.append_assoc _ _ _

namespace PercentForm

/-- A form is found as it is without white space behind the text. -/
theorem operands?_append_blank (tailBlank : ∀ c ∈ tail, Text.isBlank c = true)
    (form : PercentForm) (text : Text) :
    form.operands? (text ++ tail) =
      (form.operands? text).map (Prod.map id (Prod.map id (· ++ tail))) := by
  have numeral := Text.read_trimStart_append tailBlank (show takeNumeral? [] = none from rfl)
    (takeNumeral?_append_blank tailBlank)
  have mark {c : Char} (noBlank : Text.isBlank c = false) :=
    dropExact?_append_blank tailBlank (List.forall_mem_singleton.mpr noBlank)
  have behindBlanks {c : Char} (noBlank : Text.isBlank c = false) :=
    Text.read_trimStart_append tailBlank (show dropExact? [c] [] = none from rfl) (mark noBlank)
  have word := Text.read_trimStart_append tailBlank
    (show dropExact? "of".toList [] = none from rfl)
    (dropExact?_append_blank tailBlank
      (List.forall_mem_cons.mpr ⟨rfl, List.forall_mem_singleton.mpr rfl⟩))
  have percent : Text.isBlank '%' = false := rfl
  have plus : Text.isBlank '+' = false := rfl
  have minus : Text.isBlank '-' = false := rfl
  unfold operands?
  rw [takeNumeral?_append_blank tailBlank]
  cases form with
  | share =>
    simp only [Option.bind_eq_bind, Option.map_bind, Option.bind_map, Function.comp_def,
      Prod.map, behindBlanks percent, word, numeral]
    rfl
  | increase =>
    simp only [Option.bind_eq_bind, Option.map_bind, Option.bind_map, Function.comp_def,
      Prod.map, behindBlanks plus, mark percent, numeral]
    rfl
  | decrease =>
    simp only [Option.bind_eq_bind, Option.map_bind, Option.bind_map, Function.comp_def,
      Prod.map, behindBlanks minus, mark percent, numeral]
    rfl

/-- A form is spelled out as it is without white space around the text. -/
theorem spellOut_around (form : PercentForm) (text : Text) :
    form.spellOut (padding.around text) = padding.around (form.spellOut text) := by
  have noParts {blanks : Text} (isBlank : ∀ c ∈ blanks, Text.isBlank c = true) :
      ∀ c ∈ blanks, Token.isNumeralPart c = false := fun c isIn =>
    Text.isNumeralPart_eq_false_of_isBlank (isBlank c isIn)
  unfold Padding.around
  rw [spellOut_append form _ (noParts padding.leadBlank)]
  refine congrArg (padding.lead ++ ·) (Text.replaceAll_append_left ?_ ?_ ?_ text)
  · intro part found matched
    obtain ⟨operands, -, rfl⟩ := Option.map_eq_some_iff.mp matched
    exact Nat.sub_le _ _
  · intro part _
    unfold match?
    rw [operands?_append_blank padding.tailBlank, Option.map_map]
    refine congrArg (Option.map · (form.operands? part)) (funext fun operands => ?_)
    simp [Nat.add_sub_add_right]
  · intro part isEnd
    cases part with
    | nil => cases form <;> rfl
    | cons c others =>
      have noPart := noParts padding.tailBlank c (isEnd.subset List.mem_cons_self)
      rw [match?, operands?_cons_eq_none form _ noPart]
      rfl

end PercentForm

theorem spellOutPercentages_around (text : Text) :
    spellOutPercentages (padding.around text) = padding.around (spellOutPercentages text) := by
  unfold spellOutPercentages
  simp only [PercentForm.spellOut_around]

/-! ### Names -/

/-- Characters that belong to no word stay, whatever stands behind them. -/
theorem Variables.substitute_outside (scope : Variables) {front : Text}
    (noParts : ∀ c ∈ front, Text.isWordPart c = false) (rest : Text) :
    scope.substitute (front ++ rest) = front ++ scope.substitute rest := by
  induction front with
  | nil => rfl
  | cons c others ih =>
    rw [List.forall_mem_cons] at noParts
    rw [List.cons_append, substitute_cons scope noParts.1, ih noParts.2, List.cons_append]

/-- White space around a text stays around what its words are replaced by. -/
theorem Variables.substitute_padded (scope : Variables) (text : Text) :
    scope.substitute (padding.around text) = padding.around (scope.substitute text) := by
  have noParts {blanks : Text} (isBlank : ∀ c ∈ blanks, Text.isBlank c = true) :
      ∀ c ∈ blanks, Text.isWordPart c = false := fun c isIn =>
    Text.isWordPart_eq_false_of_isBlank (isBlank c isIn)
  unfold Padding.around
  rw [substitute_outside scope (noParts padding.leadBlank)]
  refine congrArg (padding.lead ++ ·) ?_
  induction text using Text.word_induction with
  | nil =>
    have alone := substitute_outside scope (noParts padding.tailBlank) []
    rw [List.append_nil] at alone
    exact alone.trans (List.append_nil _)
  | other c rest noPart ih =>
    rw [List.cons_append, substitute_cons scope noPart, substitute_cons scope noPart, ih,
      List.cons_append]
  | word word rest nonempty parts border ih =>
    have ends := Text.forall_head?_append border
      (Text.border_of_isBlank padding.tailBlank Text.isWordPart_eq_false_of_isBlank)
    rw [List.append_assoc, substitute_word scope parts nonempty ends,
      substitute_word scope parts nonempty border, ih, List.append_assoc]

/-! ### Tokens -/

namespace Token

/-- White space around a text is cut away. -/
theorem Cut.around {text : Text} {body : List Token} (cut : Cut text body) :
    Cut (padding.around text) body := by
  have behind {blanks rest : Text} {body : List Token}
      (isBlank : ∀ c ∈ blanks, Text.isBlank c = true) (cut : Cut rest body) :
      Cut (blanks ++ rest) body := by
    induction blanks with
    | nil => exact cut
    | cons c others ih =>
      rw [List.forall_mem_cons] at isBlank
      exact .blank isBlank.1 (ih isBlank.2)
  refine behind padding.leadBlank ?_
  induction cut with
  | nil => simpa using behind padding.tailBlank .nil
  | blank isBlank others ih => exact .blank isBlank ih
  | symbol isSymbol others ih => exact .symbol isSymbol ih
  | number nonempty parts border others ih =>
    rw [List.append_assoc]
    exact .number nonempty parts (Text.forall_head?_append border
      (Text.border_of_isBlank padding.tailBlank Text.isNumeralPart_eq_false_of_isBlank)) ih
  | name isName border others ih =>
    rw [List.append_assoc]
    refine .name isName (Text.forall_head?_append border fun c isHead => ?_) ih
    have blank := padding.tailBlank c (List.mem_of_head? isHead)
    refine ⟨Text.isWordPart_eq_false_of_isBlank blank, ?_⟩
    rintro rfl
    exact absurd blank (by decide)

/-- **White space around a text does not change its tokens.** -/
theorem reads_around_iff (text : Text) (body : List Token) :
    Reads (padding.around text) body ↔ Reads text body := by
  have around {other : List Token} (read : Reads text other) : Reads (padding.around text) other :=
    (reads_iff_cut _ _).mpr (((reads_iff_cut _ _).mp read).around padding)
  refine ⟨fun read => ?_, around⟩
  -- The reader goes over the text, so it falls into tokens by itself.
  obtain ⟨word, found, scanned, -⟩ := (reads_iff _ _).mp read
  rw [Padding.around, scan_append, Option.bind_eq_some_iff] at scanned
  obtain ⟨behindLead, -, scanned⟩ := scanned
  rw [scan_append, Option.bind_eq_some_iff] at scanned
  obtain ⟨behindText, scanned, -⟩ := scanned
  obtain ⟨other, cut⟩ := exists_cut (isWritable_of_scan scanned) (pointsApart_of_scan scanned)
  have alone := (reads_iff_cut _ _).mpr cut
  have same := (around alone).1
  rw [read.1, Except.ok.injEq] at same
  rwa [List.append_cancel_right same]

theorem ofText_around_eq_ok_iff (text : Text) (tokens : List Token) :
    ofText (padding.around text) = .ok tokens ↔ ofText text = .ok tokens := by
  constructor
  · intro read
    obtain ⟨body, rfl, reads⟩ := exists_reads read
    exact ((reads_around_iff padding text body).mp reads).1
  · intro read
    obtain ⟨body, rfl, reads⟩ := exists_reads read
    exact ((reads_around_iff padding text body).mpr reads).1

end Token

/-! ### Values -/

namespace Variables

/-- **White space around a formula does not change its value.** -/
theorem evaluate_around_eq_ok_iff (scope : Variables) (formula : Text) (value : Float) :
    scope.evaluate (padding.around formula) = .ok value ↔ scope.evaluate formula = .ok value := by
  unfold evaluate
  rw [spellOutPercentages_around, substitute_padded, evaluateText_eq_ok_iff, evaluateText_eq_ok_iff]
  simp only [Token.ofText_around_eq_ok_iff]

/-- With white space around it a formula has the same value, or none as well. -/
theorem evaluate_around_cases (scope : Variables) (formula : Text) :
    (∃ x, scope.evaluate formula = .ok x ∧ scope.evaluate (padding.around formula) = .ok x) ∨
      ∃ cause cause', scope.evaluate formula = .error cause ∧
        scope.evaluate (padding.around formula) = .error cause' := by
  have same := evaluate_around_eq_ok_iff padding scope formula
  cases inner : scope.evaluate formula with
  | ok x => exact Or.inl ⟨x, rfl, (same x).mpr inner⟩
  | error cause =>
    cases outer : scope.evaluate (padding.around formula) with
    | ok x =>
      rw [(same x).mp outer] at inner
      cases inner
    | error cause' => exact Or.inr ⟨cause, cause', rfl, rfl⟩

end Variables

end Worksheet
