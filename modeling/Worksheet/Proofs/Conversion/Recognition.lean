/-
**Which lines are conversions, and of what.**

A line is recognised as a conversion just if it is a numeral and a phrase, with white space around
them as it likes, and an inner word of the phrase is `to`. The last such word separates the units.
The amount is converted with the factors of the first category that lists the source unit, and if
that one does not list the target unit, both units are named as they stand in the line.

* `ConversionRequest.Written` is a line with its amount and its phrase;
* `ConversionRequest.ofText?_eq_some_iff`: what is recognised, and of which parts;
* `ConversionRequest.Gives` is the answer for two units without the program's search;
* `convert?_exact`: which lines have an answer, and which answer they have.
-/

import Mathlib.Data.List.Nodup
import Worksheet.Proofs.Conversion.Phrase
import Worksheet.Proofs.Expr.Scan
import Worksheet.Proofs.Number.Numeral

namespace Worksheet

/-! ### Categories -/

namespace Category

/-- The category is the first one that lists the unit. -/
def IsFirst (category : Category) (unit : Text) : Prop :=
  ∃ earlier later, all = earlier ++ category :: later ∧
    (∀ other ∈ earlier, unit ∉ other.units.map Prod.fst) ∧ unit ∈ category.units.map Prod.fst

/-- No category lists a unit twice. -/
theorem units_nodup : ∀ category ∈ all, (category.units.map Prod.fst).Nodup := by
  decide

theorem mem_units_of_factor? {category : Category} {unit : Text} {factor : Float}
    (lists : category.factor? unit = some factor) : (unit, factor) ∈ category.units := by
  obtain ⟨front, back, split, -⟩ := List.lookup_eq_some_iff.mp lists
  rw [split]
  simp

theorem isSome_factor?_iff (category : Category) (unit : Text) :
    (category.factor? unit).isSome = true ↔ unit ∈ category.units.map Prod.fst := by
  rw [factor?, List.lookup_isSome_iff]
  simp

/-- The factor of a unit is the one that is listed. -/
theorem factor?_eq_some_iff {category : Category} (known : category ∈ all) (unit : Text)
    (factor : Float) : category.factor? unit = some factor ↔ (unit, factor) ∈ category.units := by
  refine ⟨mem_units_of_factor?, fun listed => ?_⟩
  obtain ⟨found, isFactor⟩ := Option.isSome_iff_exists.mp
    ((isSome_factor?_iff category unit).mpr (List.mem_map_of_mem listed))
  have same := List.inj_on_of_nodup_map (units_nodup category known)
    (mem_units_of_factor? isFactor) listed rfl
  rw [isFactor, (Prod.mk.inj same).2]

theorem ofUnit?_eq_some_iff (unit : Text) (category : Category) :
    ofUnit? unit = some category ↔ category.IsFirst unit := by
  rw [ofUnit?, List.find?_eq_some_iff_append, IsFirst, isSome_factor?_iff]
  constructor
  · rintro ⟨listed, earlier, later, split, notBefore⟩
    refine ⟨earlier, later, split, fun other isIn => ?_, listed⟩
    rw [← isSome_factor?_iff]
    simpa using notBefore other isIn
  · rintro ⟨earlier, later, split, notBefore, listed⟩
    refine ⟨listed, earlier, later, split, fun other isIn => ?_⟩
    have unlisted := notBefore other isIn
    rw [← isSome_factor?_iff] at unlisted
    simpa using unlisted

theorem IsFirst.mem_all {category : Category} {unit : Text} (isFirst : category.IsFirst unit) :
    category ∈ all := by
  obtain ⟨earlier, later, split, -⟩ := isFirst
  rw [split]
  simp

end Category

namespace ConversionRequest

/-! ### Answers -/

theorem answer_eq_ok_iff {request : ConversionRequest} {x : Float} :
    request.answer = .ok x ↔ ∃ category divisor factor,
      Category.ofUnit? request.source = some category ∧
        category.factor? request.source = some divisor ∧
        category.factor? request.target = some factor ∧ x = request.amount / divisor * factor := by
  unfold answer
  dsimp only
  cases found : Category.ofUnit? request.source with
  | none => simp
  | some category =>
    cases first : category.factor? request.source <;>
      cases second : category.factor? request.target <;>
      simp [first, second, eq_comm]

theorem eq_of_answer_error {request : ConversionRequest}
    {failure : UnsupportedConversion} (fails : request.answer = .error failure) :
    failure = ⟨request.source, request.target⟩ := by
  unfold answer at fails
  dsimp only at fails
  split at fails
  · cases fails
  · cases fails
    rfl

/-- There is a converted amount just if the first category of the source unit lists the target. -/
theorem exists_answer_eq_ok_iff (request : ConversionRequest) :
    (∃ x, request.answer = .ok x) ↔ ∃ category : Category, category.IsFirst request.source ∧
      request.target ∈ category.units.map Prod.fst := by
  simp only [answer_eq_ok_iff, ← Category.ofUnit?_eq_some_iff, ← Category.isSome_factor?_iff]
  constructor
  · rintro ⟨x, category, divisor, factor, found, -, second, -⟩
    exact ⟨category, found, by rw [second]; rfl⟩
  · rintro ⟨category, found, second⟩
    have first := List.find?_some
      (p := fun category : Category => (category.factor? request.source).isSome) found
    obtain ⟨divisor, first⟩ := Option.isSome_iff_exists.mp first
    obtain ⟨factor, second⟩ := Option.isSome_iff_exists.mp second
    exact ⟨_, category, divisor, factor, found, first, second, rfl⟩

/-- What converting an amount from one unit to another gives. -/
inductive Gives (amount : Float) (source target : Text) :
    Except UnsupportedConversion Float → Prop
  | converted {category : Category} {divisor factor : Float} (isFirst : category.IsFirst source)
      (sourceUnit : (source, divisor) ∈ category.units)
      (targetUnit : (target, factor) ∈ category.units) :
      Gives amount source target (.ok (amount / divisor * factor))
  | unsupported (unlisted : ∀ category : Category, category.IsFirst source →
      target ∉ category.units.map Prod.fst) :
      Gives amount source target (.error ⟨source, target⟩)

/-- The answer is what converting gives. -/
theorem answer_eq_iff (request : ConversionRequest)
    (result : Except UnsupportedConversion Float) :
    request.answer = result ↔ Gives request.amount request.source request.target result := by
  constructor
  · rintro answered
    cases result with
    | ok x =>
      obtain ⟨category, divisor, factor, found, first, second, rfl⟩ := answer_eq_ok_iff.mp answered
      have isFirst := (Category.ofUnit?_eq_some_iff _ _).mp found
      exact .converted isFirst (Category.mem_units_of_factor? first)
        (Category.mem_units_of_factor? second)
    | error failure =>
      rw [eq_of_answer_error answered]
      refine .unsupported fun category isFirst listed => ?_
      obtain ⟨x, converted⟩ := (exists_answer_eq_ok_iff request).mpr ⟨category, isFirst, listed⟩
      rw [answered] at converted
      cases converted
  · rintro (⟨isFirst, sourceUnit, targetUnit⟩ | unlisted)
    · have known := isFirst.mem_all
      exact answer_eq_ok_iff.mpr ⟨_, _, _, (Category.ofUnit?_eq_some_iff _ _).mpr isFirst,
        (Category.factor?_eq_some_iff known _ _).mpr sourceUnit,
        (Category.factor?_eq_some_iff known _ _).mpr targetUnit, rfl⟩
    · cases answered : request.answer with
      | ok x =>
        obtain ⟨category, isFirst, listed⟩ := (exists_answer_eq_ok_iff request).mp ⟨x, answered⟩
        exact absurd listed (unlisted category isFirst)
      | error failure => rw [eq_of_answer_error answered]

/-! ### Lines -/

/-- The line is this amount and this phrase of these words, with white space around them. -/
def Written (line : Text) (amount : Numeral) (phrase : Text) (words : List Text) : Prop :=
  ∃ lead gap tail, line = lead ++ (amount.digits ++ (gap ++ (phrase ++ tail))) ∧
    (∀ c ∈ lead, Text.isBlank c = true) ∧ (∀ c ∈ gap, Text.isBlank c = true) ∧
    (∀ c ∈ tail, Text.isBlank c = true) ∧ Phrase phrase words

theorem Written.isPhrase {line phrase : Text} {amount : Numeral} {words : List Text}
    (written : Written line amount phrase words) : Phrase phrase words := by
  obtain ⟨-, -, -, -, -, -, -, isPhrase⟩ := written
  exact isPhrase

/-- A letter is no part of an amount. -/
theorem isAmountPart_eq_false_of_isAlpha {c : Char} (letter : c.isAlpha = true) :
    isAmountPart c = false := by
  have start : Text.isWordStart c = true := by
    rw [Text.isWordStart, letter, Bool.true_or]
  rw [isAmountPart, Text.isDigit_eq_false_of_isWordStart start, Bool.false_or, beq_eq_false_iff_ne]
  rintro rfl
  exact absurd letter (by decide)

/-- The parts of a line that the program reads. -/
theorem Written.parts {line phrase : Text} {amount : Numeral} {words : List Text}
    (written : Written line amount phrase words) :
    (Text.trim line).takeWhile isAmountPart = amount.digits ∧
      Text.trimStart ((Text.trim line).dropWhile isAmountPart) = phrase := by
  obtain ⟨lead, gap, tail, rfl, leadBlank, gapBlank, tailBlank, isPhrase⟩ := written
  have phraseStart : ∀ c ∈ phrase.head?, Text.isBlank c = false := fun c isHead =>
    Text.isBlank_eq_false_of_isAlpha (isPhrase.isAlpha_head? c isHead)
  have border : ∀ c ∈ (gap ++ phrase).head?, isAmountPart c = false :=
    Text.forall_head?_append
      (Text.border_of_isBlank gapBlank Text.isNumeralPart_eq_false_of_isBlank)
      fun c inPhrase => isAmountPart_eq_false_of_isAlpha (isPhrase.isAlpha_head? c inPhrase)
  have trimmed : Text.trim (lead ++ (amount.digits ++ (gap ++ (phrase ++ tail)))) =
      amount.digits ++ (gap ++ phrase) := by
    have joined : amount.digits ++ (gap ++ (phrase ++ tail)) =
        (amount.digits ++ (gap ++ phrase)) ++ tail := by
      simp only [List.append_assoc]
    rw [joined]
    refine Text.trim_append leadBlank tailBlank
      (List.append_ne_nil_of_left_ne_nil amount.digits_ne_nil _) ?_ ?_
    · exact Text.forall_head?_of_forall_mem amount.digits_ne_nil
        (fun c isIn => Text.isBlank_eq_false_of_isNumeralPart (amount.good.1 c isIn)) _
    · rw [List.getLast?_append_of_ne_nil _ (List.append_ne_nil_of_right_ne_nil _ isPhrase.ne_nil),
        List.getLast?_append_of_ne_nil _ isPhrase.ne_nil]
      exact fun c isLast => Text.isBlank_eq_false_of_isAlpha (isPhrase.isAlpha_getLast? c isLast)
  have digits : ∀ c ∈ amount.digits, isAmountPart c = true := amount.good.1
  rw [trimmed, Text.takeWhile_append digits border, Text.dropWhile_append digits border,
    Text.trimStart_append gapBlank phraseStart]
  exact ⟨rfl, rfl⟩

/-- A line of an amount and a phrase asks for what stands on both sides of the last inner `to`. -/
theorem Written.ofText? {line phrase : Text} {amount : Numeral} {words : List Text}
    (written : Written line amount phrase words) :
    ofText? line = (splitAtTo? phrase).map fun (source, target) =>
      ⟨amount.value, source, target⟩ := by
  obtain ⟨digits, behind⟩ := written.parts
  have letters : (phrase.all fun c => c.isAlpha || Text.isBlank c) = true := by
    rw [List.all_eq_true]
    intro c isIn
    rw [Bool.or_eq_true]
    exact written.isPhrase.isAlpha_or_isBlank c isIn
  unfold ConversionRequest.ofText?
  dsimp only
  rw [digits, behind, amount.ofText?_digits, letters]
  rfl

/-- A line that is recognised is written so. -/
theorem exists_written {line : Text} {request : ConversionRequest}
    (asks : ofText? line = some request) :
    ∃ amount phrase words, Written line amount phrase words := by
  obtain ⟨lead, tail, split, leadBlank, tailBlank, -, ends⟩ := Text.exists_trim line
  unfold ofText? at asks
  dsimp only at asks
  split at asks
  next => cases asks
  next decimal reads =>
    split at asks
    next letters =>
      obtain ⟨⟨source, target⟩, splits, -⟩ := Option.map_eq_some_iff.mp asks
      obtain ⟨amount, digits, -⟩ := Numeral.exists_of_ofText? reads
      obtain ⟨gap, gapBlank, behind⟩ :=
        Text.exists_trimStart ((Text.trim line).dropWhile isAmountPart)
      have start := Text.head?_dropWhile (p := Text.isBlank)
        ((Text.trim line).dropWhile isAmountPart)
      have parts : Text.trim line = amount.digits ++
          (gap ++ Text.trimStart ((Text.trim line).dropWhile isAmountPart)) := by
        rw [digits, ← behind, List.takeWhile_append_dropWhile]
      have nonempty : Text.trimStart ((Text.trim line).dropWhile isAmountPart) ≠ [] := by
        intro empty
        rw [empty] at splits
        cases splits
      rw [← Text.trimStart] at start
      generalize Text.trimStart ((Text.trim line).dropWhile isAmountPart) = phrase at *
      rw [parts] at split ends
      rw [List.getLast?_append_of_ne_nil _ (List.append_ne_nil_of_right_ne_nil _ nonempty),
        List.getLast?_append_of_ne_nil _ nonempty] at ends
      rw [List.all_eq_true] at letters
      obtain ⟨words, isPhrase⟩ := exists_phrase
        (fun c isIn => (Bool.or_eq_true _ _).mp (letters c isIn)) nonempty start ends
      refine ⟨amount, phrase, words, lead, gap, tail, ?_, leadBlank, gapBlank, tailBlank, isPhrase⟩
      rw [split]
      simp only [List.append_assoc]
    next => cases asks

/-- **What is recognised as a conversion**: an amount and a phrase with the two units on both sides
of its last inner `to`. -/
theorem ofText?_eq_some_iff (line : Text) (request : ConversionRequest) :
    ofText? line = some request ↔ ∃ amount phrase words, Written line amount phrase words ∧
      SplitsAtLastTo phrase request.source request.target ∧ request.amount = amount.value := by
  constructor
  · intro asks
    obtain ⟨amount, phrase, words, written⟩ := exists_written asks
    rw [written.ofText?] at asks
    obtain ⟨⟨source, target⟩, splits, rfl⟩ := Option.map_eq_some_iff.mp asks
    exact ⟨amount, phrase, words, written,
      (splitAtTo?_eq_some_iff written.isPhrase _ _).mp splits, rfl⟩
  · rintro ⟨amount, phrase, words, written, splits, isAmount⟩
    rw [written.ofText?, splitAtTo?_of_splitsAtLastTo splits, Option.map_some, ← isAmount]

theorem isSome_ofText?_iff (line : Text) :
    (ofText? line).isSome = true ↔
      ∃ amount phrase words, Written line amount phrase words ∧ HasInnerTo words := by
  constructor
  · intro asks
    obtain ⟨request, isRequest⟩ := Option.isSome_iff_exists.mp asks
    obtain ⟨amount, phrase, words, written⟩ := exists_written isRequest
    rw [written.ofText?, Option.isSome_map] at asks
    exact ⟨amount, phrase, words, written, (isSome_splitAtTo?_iff written.isPhrase).mp asks⟩
  · rintro ⟨amount, phrase, words, written, inner⟩
    rw [written.ofText?, Option.isSome_map]
    exact (isSome_splitAtTo?_iff written.isPhrase).mpr inner

end ConversionRequest

open ConversionRequest

/-- **Lines that have an answer are exactly those of an amount and at least three words, of which
one that is neither the first nor the last is `to`.** The answer is what converting gives, for the
units before and behind the last such word. -/
theorem convert?_exact (line : Text) :
    ((convert? line).isSome = true ↔ ∃ amount phrase words, Written line amount phrase words ∧
      3 ≤ words.length ∧ HasInnerTo words) ∧
    ∀ answer, convert? line = some answer ↔ ∃ amount phrase words source target,
      Written line amount phrase words ∧ SplitsAtLastTo phrase source target ∧
        Gives amount.value source target answer := by
  refine ⟨?_, fun answer => ?_⟩
  · rw [convert?, Option.isSome_map, isSome_ofText?_iff]
    refine exists_congr fun amount => exists_congr fun phrase => exists_congr fun words =>
      and_congr_right fun _ => ⟨fun inner => ⟨inner.three_le_length, inner⟩, And.right⟩
  · rw [convert?, Option.map_eq_some_iff]
    constructor
    · rintro ⟨request, asks, answered⟩
      obtain ⟨amount, phrase, words, written, splits, isAmount⟩ :=
        (ofText?_eq_some_iff line request).mp asks
      refine ⟨amount, phrase, words, _, _, written, splits, ?_⟩
      rw [← isAmount]
      exact (answer_eq_iff request answer).mp answered
    · rintro ⟨amount, phrase, words, source, target, written, splits, gives⟩
      refine ⟨⟨amount.value, source, target⟩, ?_, (answer_eq_iff _ _).mpr gives⟩
      exact (ofText?_eq_some_iff _ _).mpr ⟨amount, phrase, words, written, splits, rfl⟩

end Worksheet
