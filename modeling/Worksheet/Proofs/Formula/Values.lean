/-
**The text of a value reads back.**

The text of a value is an expression. A number is a numeral, with a sign in front of it below zero;
a date is its year, with the sign that it is written with, less its month and less its day. There is
no percentage and no name in it, so that a formula that is such a text is read as it stands, and so
is a formula that is a name for such a value. The fields of a date are small enough for their
difference to be exact.

* `Value.phrase` is the phrase of the grammar that a text spells, and `reads_toText` says that it does;
* `Value.CountsAs` says which number a value counts as in a formula;
* `evaluate_toText`: the text of a value, and each name for it, has this number as its value.
-/

import Worksheet.Proofs.Calendar.DayNumber
import Worksheet.Proofs.Formula.Meaning
import Worksheet.Proofs.Number.Whole

namespace Worksheet

open Grammar
open Token (scan)

/-! ### Padded numerals -/

namespace Numeral

/-- A whole number with zeros in front up to the given width. -/
def padded (width n : Nat) : Numeral :=
  ⟨Text.zeroPadded width n, (Decimal.isNumeral_digits (Decimal.isDigit_zeroPadded width n)).mpr
    (Decimal.zeroPadded_ne_nil width n)⟩

/-- A small whole number is read exactly. -/
theorem denotes_padded (width : Nat) {n : Nat} (atMost : n ≤ 2 ^ 53) :
    Binary.Denotes (padded width n).value n := by
  have decimal : (padded width n).decimal = ⟨n, 0⟩ := by
    have read := Decimal.ofText?_digits (Decimal.isDigit_zeroPadded width n)
      (Decimal.zeroPadded_ne_nil width n)
    rw [Decimal.ofDigitChars_zeroPadded_zero] at read
    exact Option.some.inj ((padded width n).ofText?_digits.symm.trans read)
  have number : Decimal.toRat ⟨n, 0⟩ = n := by
    rw [Decimal.toRat, zpow_zero, mul_one]
  rw [value, decimal, Decimal.toFloat, number]
  exact Binary.denotes_nearest_natCast atMost

end Numeral

/-! ### The phrase of a value -/

/-- The leaf of a year: its digits, behind the sign that it is written with. -/
def Grammar.Leaf.ofYear (year : Int) : Leaf :=
  let digits : Leaf := .number (Numeral.padded 4 year.natAbs)
  if year < 0 then .minus digits
  else if 9999 < year then .plus digits
  else digits

/-- The phrase that the text of a value spells. -/
def Value.phrase : Value → Sum
  | number x => .product (.leaf (.ofNumber x))
  | date day =>
    .plus
      (.plus (.product (.leaf (.ofYear day.year)))
        .sub (by decide) (.leaf (.number (Numeral.padded 2 day.month))))
      .sub (by decide) (.leaf (.number (Numeral.padded 2 day.day)))

/-- The value is no infinity and no NaN. -/
def Value.IsFinite (value : Value) : Prop :=
  ∀ x, value = .number x → x.isFinite = true

/-! ### Reading the text -/

theorem scan_padded (width n : Nat) (found : List Token) :
    scan (.nothing, found) (Text.zeroPadded width n) =
      some (.number (Text.zeroPadded width n).reverse, found) := by
  have parts : ∀ c ∈ Text.zeroPadded width n, Token.isNumeralPart c = true := fun c isIn =>
    (Token.isNumeralPart_iff c).mpr (Or.inl (Decimal.isDigit_zeroPadded width n c isIn))
  rw [Token.scan_numeral found rfl parts (Decimal.zeroPadded_ne_nil width n), List.append_nil]

/-- Behind a numeral, a hyphen is a minus. -/
theorem scan_hyphen (digits : Text) (found : List Token) (rest : Text) :
    scan (.number digits, found) ('-' :: rest) =
      scan (.nothing, .operator .sub :: .number digits.reverse :: found) rest := by
  rw [Token.scan_cons]
  rfl

theorem scan_yearText (year : Int) :
    ∃ found, scan (.nothing, []) (Date.yearText year) =
        some (.number (Text.zeroPadded 4 year.natAbs).reverse, found) ∧
      .number (Text.zeroPadded 4 year.natAbs) :: found = (Leaf.ofYear year).tokens.reverse := by
  unfold Date.yearText Leaf.ofYear
  dsimp only
  split_ifs
  · exact ⟨[.operator .sub], scan_padded 4 _ _, rfl⟩
  · exact ⟨[.operator .add], scan_padded 4 _ _, rfl⟩
  · exact ⟨[], scan_padded 4 _ _, rfl⟩

theorem Grammar.Leaf.tokens_ofNumber (x : Float) : (Leaf.ofNumber x).tokens = numberTokens x := by
  unfold Leaf.ofNumber numberTokens
  split <;> rfl

/-- **The text of a value spells its phrase.** -/
theorem Value.reads_toText {value : Value} (finite : value.IsFinite) :
    Token.Reads value.toText value.phrase.tokens := by
  rw [Token.reads_iff]
  cases value with
  | number x =>
    obtain ⟨earlier, scanned, tokens⟩ := Variables.scan_toText (finite x rfl) []
    refine ⟨_, _, scanned, ?_⟩
    rw [OpenWord.close, List.reverse_reverse, tokens, List.append_nil, List.reverse_reverse]
    exact Leaf.tokens_ofNumber x
  | date day =>
    obtain ⟨found, scanned, tokens⟩ := scan_yearText day.year
    have whole : (date day).toText = Date.yearText day.year ++
        ('-' :: (Text.zeroPadded 2 day.month ++ '-' :: Text.zeroPadded 2 day.day)) :=
      List.append_assoc _ _ _
    have scannedAll : scan (.nothing, []) (date day).toText =
        some (.number (Text.zeroPadded 2 day.day).reverse,
          .operator .sub :: .number (Text.zeroPadded 2 day.month) :: .operator .sub ::
            (Leaf.ofYear day.year).tokens.reverse) := by
      rw [whole, Token.scan_append, scanned, Option.bind_some, scan_hyphen, List.reverse_reverse,
        tokens, Token.scan_append, scan_padded, Option.bind_some, scan_hyphen, scan_padded,
        List.reverse_reverse]
    refine ⟨_, _, scannedAll, ?_⟩
    rw [OpenWord.close, List.reverse_reverse, phrase, Sum.tokens, Sum.tokens, Sum.tokens]
    simp [Product.tokens, Leaf.tokens, Numeral.padded]

/-! ### The value of the phrase -/

theorem Grammar.Leaf.eval_padded (width : Nat) {n : Nat} (atMost : n ≤ 2 ^ 53) :
    ∃ x, (Leaf.number (Numeral.padded width n)).tree.eval = .ok x ∧ Binary.Denotes x (n : Int) := by
  have denotes := Numeral.denotes_padded width atMost
  refine ⟨_, ?_, by exact_mod_cast denotes⟩
  rw [Leaf.tree_numeral, Expr.eval, requireFinite, if_pos denotes.isFinite]

theorem Grammar.Leaf.eval_ofYear {year : Int} (atMost : year.natAbs ≤ 2 ^ 53) :
    ∃ x, (Leaf.ofYear year).tree.eval = .ok x ∧ Binary.Denotes x year := by
  obtain ⟨x, evaluates, denotes⟩ := Leaf.eval_padded 4 atMost
  unfold Leaf.ofYear
  dsimp only
  split_ifs with before behind
  · refine ⟨-x, ?_, ?_⟩
    · rw [Leaf.tree, Expr.eval, evaluates]
    · have negated : year = -(year.natAbs : Int) := by omega
      rw [negated, Int.cast_neg]
      exact denotes.neg
  · have same : (year.natAbs : Int) = year := by omega
    exact ⟨x, evaluates, same ▸ denotes⟩
  · have same : (year.natAbs : Int) = year := by omega
    exact ⟨x, evaluates, same ▸ denotes⟩

/-- A difference of small whole numbers is exact. -/
theorem Expr.eval_sub {left right : Expr} {x y : Float} {m n : Int}
    (evaluatesLeft : left.eval = .ok x) (evaluatesRight : right.eval = .ok y)
    (denotesLeft : Binary.Denotes x m) (denotesRight : Binary.Denotes y n)
    (atMost : |m - n| ≤ 2 ^ 53) :
    ∃ z, (Expr.binary .sub left right).eval = .ok z ∧ Binary.Denotes z (m - n : Int) := by
  have fits := Binary.intCast_lt_leastInfinite atMost
  have exact := Binary.roundedSigned_eq_self (Binary.hasFewDigits_intCast atMost)
  rw [Int.cast_sub] at fits exact
  have denotes := denotesLeft.sub denotesRight fits
  rw [exact, ← Int.cast_sub] at denotes
  exact ⟨x - y, (eval_binary_eq_ok_iff _ _ _ _).mpr
    ⟨⟨x, evaluatesLeft, y, evaluatesRight, rfl⟩, denotes.isFinite⟩, denotes⟩

/-- What a value counts as in a formula: a number as itself, and as zero without sign if it is zero;
a date as its year less its month and its day. -/
def Value.CountsAs (value : Value) (y : Float) : Prop :=
  match value with
  | number x => y = if x == 0 then 0 else x
  | date day => Binary.Denotes y (day.year - day.month - day.day : Int)

/-- The phrase of a value has the value that it counts as. -/
theorem Value.eval_phrase {value : Value} (finite : value.IsFinite) :
    ∃ y, value.phrase.tree.eval = .ok y ∧ value.CountsAs y := by
  cases value with
  | number x => exact ⟨_, Leaf.eval_ofNumber (finite x rfl), rfl⟩
  | date day =>
    have inReach := day.exists_day.1
    have months := day.month_le
    have days := day.day_le
    unfold firstYear lastYear at inReach
    obtain ⟨year, isYear, denotesYear⟩ := @Leaf.eval_ofYear day.year (by omega)
    obtain ⟨month, isMonth, denotesMonth⟩ := Leaf.eval_padded 2 (n := day.month) (by omega)
    obtain ⟨dayOf, isDay, denotesDay⟩ := Leaf.eval_padded 2 (n := day.day) (by omega)
    obtain ⟨rest, isRest, denotesRest⟩ := Expr.eval_sub isYear isMonth denotesYear denotesMonth
      (abs_le.mpr ⟨by omega, by omega⟩)
    exact Expr.eval_sub isRest isDay denotesRest denotesDay (abs_le.mpr ⟨by omega, by omega⟩)

theorem Grammar.Leaf.levels_ofNumber (x : Float) : (Leaf.ofNumber x).levels ≤ 2 := by
  unfold Leaf.ofNumber
  split <;> simp [Leaf.levels]

theorem Grammar.Leaf.levels_ofYear (year : Int) : (Leaf.ofYear year).levels ≤ 2 := by
  unfold Leaf.ofYear
  dsimp only
  split_ifs <;> simp [Leaf.levels]

/-- Reading a value takes few levels. -/
theorem Value.levels_phrase (value : Value) : value.phrase.levels ≤ levelLimit := by
  cases value with
  | number x =>
    have sign := Leaf.levels_ofNumber x
    simp only [phrase, Sum.levels, Product.levels, levelLimit]
    omega
  | date day =>
    have sign := Leaf.levels_ofYear day.year
    simp only [phrase, Sum.levels, Product.levels, Leaf.levels, Sum.operators, Product.operators,
      levelLimit]
    omega

/-! ### The value of the text -/

/-- There is nothing in the text of a value that a formula would be changed at. -/
theorem Value.isNumeralPart_or_sign {value : Value} (finite : value.IsFinite) :
    ∀ c ∈ value.toText, Token.isNumeralPart c = true ∨ c = '-' ∨ c = '+' := by
  have inDigits (width n : Nat) : ∀ c ∈ Text.zeroPadded width n,
      Token.isNumeralPart c = true ∨ c = '-' ∨ c = '+' := fun c isIn =>
    Or.inl ((Token.isNumeralPart_iff c).mpr (Or.inl (Decimal.isDigit_zeroPadded width n c isIn)))
  cases value with
  | number x =>
    rw [toText_number (finite x rfl), List.forall_mem_append]
    refine ⟨?_, fun c isIn => Or.inl ((Numeral.ofMagnitude x).good.1 c isIn)⟩
    split <;> simp
  | date day =>
    have year : ∀ c ∈ Date.yearText day.year, Token.isNumeralPart c = true ∨ c = '-' ∨ c = '+' := by
      unfold Date.yearText
      dsimp only
      split_ifs
      · exact List.forall_mem_cons.mpr ⟨by simp, inDigits 4 _⟩
      · exact List.forall_mem_cons.mpr ⟨by simp, inDigits 4 _⟩
      · exact inDigits 4 _
    show ∀ c ∈ day.toText, _
    unfold Date.toText
    rw [List.forall_mem_append, List.forall_mem_append, List.forall_mem_cons, List.forall_mem_cons]
    exact ⟨⟨year, by simp, inDigits 2 day.month⟩, by simp, inDigits 2 day.day⟩

namespace Variables

variable {scope : Variables} {value : Value}

/-- A formula that is the text of a value is evaluated as it stands. -/
theorem evaluate_toText_eq (scope : Variables) (finite : value.IsFinite) :
    scope.evaluate value.toText = evaluateText value.toText := by
  have parts := Value.isNumeralPart_or_sign finite
  have plain : '%' ∉ value.toText := fun isIn =>
    absurd (parts '%' isIn) (by decide)
  have noStart : ∀ c ∈ value.toText, Text.isWordStart c = false := by
    intro c isIn
    rw [← Bool.not_eq_true]
    intro start
    rcases parts c isIn with part | rfl | rfl
    · rw [Token.isNumeralPart_eq_false_of_isWordStart start] at part
      cases part
    · cases start
    · cases start
  rw [evaluate, spellOutPercentages_eq_self plain, substitute_eq_self scope noStart]

/-- A formula that is a name for a value is evaluated as the text of the value. -/
theorem evaluate_name {name : Text} (isName : Text.isName name = true)
    (held : scope.get? name = some value) : scope.evaluate name = evaluateText value.toText := by
  have parts := Text.isWordPart_of_isName isName
  have plain : '%' ∉ name := fun isIn => absurd (parts '%' isIn) (by decide)
  have nonempty := Text.ne_nil_of_isName isName
  have replaced : scope.substituteRun name = value.toText := by
    rw [substituteRun, if_pos isName, held]
  rw [evaluate, spellOutPercentages_eq_self plain, substitute_run scope true parts nonempty, replaced]

/-- **The text of a value reads back as the value.** Evaluated as a formula, whatever the variables
are, it gives the number that the value counts as; so does every name for the value. -/
theorem evaluate_toText (scope : Variables) {value : Value} (finite : value.IsFinite) :
    ∃ y, value.CountsAs y ∧ scope.evaluate value.toText = .ok y ∧
      ∀ name, Text.isName name = true → scope.get? name = some value →
        scope.evaluate name = .ok y := by
  obtain ⟨y, evaluates, counts⟩ := Value.eval_phrase finite
  have reads : evaluateText value.toText = .ok y :=
    (evaluateText_of_reads (Value.reads_toText finite) value.levels_phrase y).mpr evaluates
  refine ⟨y, counts, ?_, fun name isName held => ?_⟩
  · rw [evaluate_toText_eq scope finite, reads]
  · rw [evaluate_name isName held, reads]

/-- A day of the year -12. -/
def longAgo : Date :=
  ⟨-12, 3, 4, by decide⟩

/-- The text of a date whose year has a sign, and a name for the date. -/
theorem evaluate_toText_longAgo :
    (Value.date longAgo).IsFinite ∧
      (empty.set ['d'] (.date longAgo)).get? ['d'] = some (.date longAgo) ∧
      ∃ y, Binary.Denotes y (-19 : Int) ∧
        (empty.set ['d'] (.date longAgo)).evaluate "-0012-03-04".toList = .ok y ∧
        (empty.set ['d'] (.date longAgo)).evaluate ['d'] = .ok y := by
  have finite : (Value.date longAgo).IsFinite := nofun
  have held : (empty.set ['d'] (.date longAgo)).get? ['d'] = some (.date longAgo) := rfl
  have text : (Value.date longAgo).toText = "-0012-03-04".toList := by decide
  obtain ⟨y, counts, evaluates, named⟩ := evaluate_toText (empty.set ['d'] (.date longAgo)) finite
  exact ⟨finite, held, y, counts, text ▸ evaluates, named ['d'] rfl held⟩

end Variables

end Worksheet
