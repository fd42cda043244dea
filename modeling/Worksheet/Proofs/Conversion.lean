/-
**How far conversions stay finite.**

A conversion divides the amount by the factor of its unit and multiplies by the factor of the other
one. The amount is rounded to a double when it is read, and so are the quotient and the product, but
nothing checks them as the results of a formula are checked: from half a unit above the largest
double on each of them is infinity, and so is the result, which the line shows like any other.

* `ConversionRequest.Asks` is what a line asks for, in exact numbers;
* `Category.factors_spec` bounds the factors of units;
* `isFinite_convert?_iff`: which conversions give a finite amount.
-/

import Worksheet.Proofs.Conversion.Recognition
import Worksheet.Proofs.Number.DecimalText
import Worksheet.Proofs.Number.Products
import Worksheet.Sheet

namespace Worksheet

open Binary

/-! ### Factors -/

namespace Category

/-- The factors of a category are finite and positive, and none is much larger than another. -/
theorem factors_spec : ∀ category ∈ all, ∀ first ∈ category.units, ∀ second ∈ category.units,
    first.2.isFinite = true ∧ hasSignBit first.2 = false ∧
      1 / 10 ^ 13 ≤ (ofMagnitude false (magnitudeBits first.2)).magnitude ∧
      (ofMagnitude false (magnitudeBits second.2)).magnitude ≤ 10 ^ 6 ∧
      (ofMagnitude false (magnitudeBits second.2)).magnitude ≤
        10 ^ 13 * (ofMagnitude false (magnitudeBits first.2)).magnitude := by
  decide +kernel

/-- The factors of two units of a category stand for positive numbers, and the one for at most ten
million million times the other. -/
theorem exists_standsFor {category : Category} {source target : Text} {divisor factor : Float}
    (known : category ∈ all) (first : category.factor? source = some divisor)
    (second : category.factor? target = some factor) :
    ∃ s t, StandsFor divisor s ∧ StandsFor factor t ∧ 1 / 10 ^ 13 ≤ s ∧ 0 < t ∧ t ≤ 10 ^ 6 ∧
      t ≤ 10 ^ 13 * s := by
  have memFirst := mem_units_of_factor? first
  have memSecond := mem_units_of_factor? second
  obtain ⟨finite₁, noSign₁, low₁, high₂, ratio⟩ :=
    factors_spec category known _ memFirst _ memSecond
  obtain ⟨finite₂, noSign₂, low₂, -⟩ := factors_spec category known _ memSecond _ memFirst
  refine ⟨_, _, ⟨finite₁, noSign₁, rfl⟩, ⟨finite₂, noSign₂, rfl⟩, low₁, ?_, high₂, ratio⟩
  exact lt_of_lt_of_le (by positivity) low₂

end Category

/-! ### What a line asks for -/

namespace ConversionRequest

variable {line : Text} {request : ConversionRequest} {x : Float}

/-- The line asks to convert the amount between two units with these factors: the amount is the one
that is written, and the factors are those of the first category that lists its unit. -/
def Asks (line : Text) (amount source target : Rat) : Prop :=
  ∃ request numeral category divisor factor,
    ofText? line = some request ∧
      Decimal.ofText? ((Text.trim line).takeWhile isAmountPart) = some numeral ∧
      numeral.toRat = amount ∧
      Category.ofUnit? request.source = some category ∧
      category.factor? request.source = some divisor ∧ StandsFor divisor source ∧
      category.factor? request.target = some factor ∧ StandsFor factor target

theorem exists_numeral_of_ofText? (asks : ofText? line = some request) :
    ∃ numeral, Decimal.ofText? ((Text.trim line).takeWhile isAmountPart) = some numeral ∧
      request.amount = numeral.toFloat := by
  obtain ⟨amount, phrase, words, written, -, isAmount⟩ := (ofText?_eq_some_iff line request).mp asks
  refine ⟨amount.decimal, ?_, isAmount⟩
  rw [written.parts.1, amount.ofText?_digits]

/-- A line that is recognised is not blank. -/
theorem all_isBlank_of_ofText? (asks : ofText? line = some request) :
    line.all Text.isBlank = false := by
  obtain ⟨amount, phrase, words, lead, gap, tail, rfl, -⟩ := exists_written asks
  obtain ⟨c, isIn, digit⟩ := amount.good.2.1
  rw [List.all_eq_false]
  refine ⟨c, by simp [isIn], ?_⟩
  rw [Text.isBlank_eq_false_of_isWordPart c (Text.isWordPart_of_isDigit c digit)]
  exact Bool.false_ne_true

end ConversionRequest

/-- A line that is recognised as a conversion is interpreted as one. -/
theorem Line.ofText_of_ofText? {text : Text} {request : ConversionRequest}
    (asks : ConversionRequest.ofText? text = some request) :
    Line.ofText text = .conversion request := by
  rw [Line.ofText, ConversionRequest.all_isBlank_of_ofText? asks, asks]
  rfl

/-- The result of a line whose units can be converted is the converted amount. -/
theorem Sheet.interpret_of_convert? {text : Text} {x : Float}
    (converts : convert? text = some (.ok x)) (scope : Variables) :
    interpret scope text = (some (.converted x), scope) := by
  obtain ⟨request, asks, answers⟩ := Option.map_eq_some_iff.mp converts
  rw [interpret, Line.ofText_of_ofText? asks]
  dsimp only
  rw [answers]

/-! ### Overflow -/

/-- A coarse bound: rounding adds at most a tenth and one. -/
theorem rounded_le_tenth {v : Rat} (nonneg : 0 ≤ v) : rounded v ≤ 11 / 10 * v + 1 := by
  have unit : (2 : Rat) ^ (-1075 : Int) ≤ 1 := zpow_le_one_of_nonpos₀ (by norm_num) (by norm_num)
  have relative : (1 + 2 ^ (-53 : Int)) * v ≤ 11 / 10 * v := by
    gcongr
    norm_num
  exact (rounded_le nonneg).trans (add_le_add relative unit)

/-- Amounts of up to 295 digits in front of the point keep away from infinity. -/
theorem staysBelow_of_le {amount s t : Rat} (nonneg : 0 ≤ amount) (small : amount ≤ 10 ^ 295)
    (low : 1 / 10 ^ 13 ≤ s) (positive : 0 < t) (high : t ≤ 10 ^ 6) (ratio : t ≤ 10 ^ 13 * s) :
    StaysBelow amount s t := by
  have bound : (15 : Rat) * 10 ^ 12 * 10 ^ 295 < leastInfinite := by decide +kernel
  have enough : (10 : Rat) ^ 6 ≤ 10 ^ 295 := pow_le_pow_right₀ (by norm_num) (by norm_num)
  generalize (10 : Rat) ^ 295 = largest at small bound enough
  have divisor : 0 < s := lt_of_lt_of_le (by positivity) low
  have first : rounded amount ≤ 12 / 10 * largest := by
    have rounding := rounded_le_tenth nonneg
    linarith
  have inverse : 1 / s ≤ 10 ^ 13 := by
    rw [div_le_iff₀ divisor]
    linarith
  have quotient : rounded amount / s ≤ 12 / 10 * largest * 10 ^ 13 := by
    rw [div_eq_mul_one_div]
    gcongr
  have both : rounded amount / s * t ≤ 12 / 10 * largest * 10 ^ 13 := by
    have scale : t / s ≤ 10 ^ 13 := (div_le_iff₀ divisor).mpr ratio
    rw [div_mul_eq_mul_div, mul_div_assoc]
    gcongr
  have product : rounded (rounded amount / s) * t ≤
      11 / 10 * (12 / 10 * largest * 10 ^ 13) + 10 ^ 6 := by
    calc rounded (rounded amount / s) * t ≤ (11 / 10 * (rounded amount / s) + 1) * t := by
          gcongr
          exact rounded_le_tenth (div_nonneg (rounded_nonneg amount) divisor.le)
      _ = 11 / 10 * (rounded amount / s * t) + t := by ring
      _ ≤ 11 / 10 * (12 / 10 * largest * 10 ^ 13) + 10 ^ 6 := by gcongr
  exact ⟨by linarith, by linarith, by linarith⟩

/-- **A conversion is finite just if the amount, the quotient by the one factor and its product with
the other stay below what is rounded to infinity.** Then it stands for the product, rounded at each
step, and otherwise it is infinity. Amounts of up to 295 digits in front of the point stay finite in
all units, and whatever comes out is the result that the line shows. -/
theorem isFinite_convert?_iff {line : Text} {x : Float} (converts : convert? line = some (.ok x)) :
    ∃ amount source target, ConversionRequest.Asks line amount source target ∧
      (x.isFinite = true ↔ StaysBelow amount source target) ∧
      (x.isFinite = true → StandsFor x (rounded (rounded (rounded amount / source) * target))) ∧
      (x.isFinite = false → x = infinity) ∧
      (amount ≤ 10 ^ 295 → x.isFinite = true) ∧
      ∀ scope, Sheet.interpret scope line = (some (.converted x), scope) := by
  have shown := Sheet.interpret_of_convert? converts
  obtain ⟨request, asks, answers⟩ := Option.map_eq_some_iff.mp converts
  obtain ⟨numeral, reads, isAmount⟩ := ConversionRequest.exists_numeral_of_ofText? asks
  obtain ⟨category, divisor, factor, found, first, second, rfl⟩ :=
    ConversionRequest.answer_eq_ok_iff.mp answers
  obtain ⟨s, t, stands₁, stands₂, low, positive, high, ratio⟩ :=
    Category.exists_standsFor (List.mem_of_find?_eq_some found) first second
  have divisorPositive : 0 < s := lt_of_lt_of_le (by positivity) low
  have nonneg := numeral.toRat_nonneg
  have small (atMost : numeral.toRat ≤ 10 ^ 295) :=
    staysBelow_of_le nonneg atMost low positive high ratio
  refine ⟨numeral.toRat, s, t, ⟨request, numeral, category, divisor, factor, asks, reads, rfl,
    found, first, stands₁, second, stands₂⟩, ?_⟩
  have cases := nearest_div_mul_cases nonneg stands₁ stands₂ divisorPositive positive
  change _ ∧ StandsFor (numeral.toFloat / divisor * factor) _ ∨
    _ ∧ numeral.toFloat / divisor * factor = infinity at cases
  rw [← isAmount] at cases
  rcases cases with ⟨below, stands⟩ | ⟨large, infinite⟩
  · have notInfinite : ¬ (request.amount / divisor * factor).isFinite = false := by
      rw [stands.1]
      exact Bool.noConfusion
    exact ⟨iff_of_true stands.1 below, fun _ => stands, fun infinite => absurd infinite notInfinite,
      fun _ => stands.1, shown⟩
  · have notFinite : ¬ (request.amount / divisor * factor).isFinite = true := by
      rw [infinite, isFinite_infinity]
      exact Bool.false_ne_true
    exact ⟨iff_of_false notFinite large, fun finite => absurd finite notFinite, fun _ => infinite,
      fun atMost => absurd (small atMost) large, shown⟩

/-- Two and a half kilometres are converted to a finite number of metres. -/
theorem isFinite_convert?_kilometres :
    ∃ x, convert? "2.5 km to m".toList = some (.ok x) ∧ x.isFinite = true ∧
      ∃ amount source target,
        ConversionRequest.Asks "2.5 km to m".toList amount source target ∧
          (x.isFinite = true ↔ StaysBelow amount source target) ∧
          (x.isFinite = true →
            StandsFor x (rounded (rounded (rounded amount / source) * target))) ∧
          (x.isFinite = false → x = infinity) ∧
          (amount ≤ 10 ^ 295 → x.isFinite = true) ∧
          ∀ scope, Sheet.interpret scope "2.5 km to m".toList = (some (.converted x), scope) :=
  ⟨_, rfl, by decide +kernel, isFinite_convert?_iff rfl⟩

/-- An amount of four hundred nines is converted to infinity, and shown as a success. -/
theorem convert?_nines :
    ∃ x, convert? (List.replicate 400 '9' ++ " km to m".toList) = some (.ok x) ∧
      x.isFinite = false ∧
      ∀ scope, Sheet.interpret scope (List.replicate 400 '9' ++ " km to m".toList) =
          (some (.converted x), scope) ∧ (Result.converted x).outcome = .success := by
  have infinite : ((convert? (List.replicate 400 '9' ++ " km to m".toList)).bind
      Except.toOption).map Float.isFinite = some false := by decide +kernel
  obtain ⟨x, converted, notFinite⟩ := Option.map_eq_some_iff.mp infinite
  obtain ⟨answer, converts, isAmount⟩ := Option.bind_eq_some_iff.mp converted
  cases answer with
  | error failure => cases isAmount
  | ok amount =>
    cases isAmount
    exact ⟨x, converts, notFinite,
      fun scope => ⟨Sheet.interpret_of_convert? converts scope, rfl⟩⟩

end Worksheet
