/-
**The kinds of lines.**

The kind of a line can be said without the order in which the program looks at its characters. An
assignment is white space, a name, an equals sign and a formula, in one way only; a calculation is
anything with an equals sign at its end. Both shapes fit a line with two equals signs, which is an
assignment then. No conversion has an equals sign, so it does not matter that conversions are
recognised first.

* `WrittenAssignment` and `WrittenCalculation` are lines of these shapes in their parts;
* `WrittenAssignment.toText_injective`: there is no other way to read an assignment;
* `Line.Recognised` is the order in which the shapes are tried, and `Line.ofText_eq_iff`: the first
  one that fits decides;
* `Line.ofText_kind`: which kind a line is of, and with which parts.
-/

import Worksheet.Line
import Worksheet.Proofs.Conversion.Recognition

namespace Worksheet

/-! ### Shapes -/

/-- A name, an equals sign and a formula, with white space in front and between them. -/
structure WrittenAssignment where
  lead : Text
  name : Text
  before : Text
  behind : Text
  formula : Text
  leadBlank : ∀ c ∈ lead, Text.isBlank c = true
  isName : Text.isName name = true
  beforeBlank : ∀ c ∈ before, Text.isBlank c = true
  behindBlank : ∀ c ∈ behind, Text.isBlank c = true
  nonempty : formula ≠ []
  start : ∀ c ∈ formula.head?, Text.isBlank c = false

/-- A formula and an equals sign, with white space at the end. -/
structure WrittenCalculation where
  formula : Text
  tail : Text
  tailBlank : ∀ c ∈ tail, Text.isBlank c = true

namespace WrittenAssignment

/-- The line as it is written. -/
def toText (parts : WrittenAssignment) : Text :=
  parts.lead ++ (parts.name ++ (parts.before ++ '=' :: (parts.behind ++ parts.formula)))

variable (parts : WrittenAssignment)

theorem mem_toText : '=' ∈ parts.toText := by
  simp [toText]

/-! ### Where the parts end -/

/-- A name starts with a character that is no white space. -/
theorem isBlank_head?_name (rest : Text) :
    ∀ c ∈ (parts.name ++ rest).head?, Text.isBlank c = false :=
  Text.forall_head?_of_forall_mem (Text.ne_nil_of_isName parts.isName)
    (Text.isBlank_eq_false_of_isName parts.isName) rest

/-- White space and the equals sign end the name. -/
theorem isWordPart_head?_before (rest : Text) :
    ∀ c ∈ (parts.before ++ '=' :: rest).head?, Text.isWordPart c = false := by
  refine Text.forall_head?_append
    (Text.border_of_isBlank parts.beforeBlank Text.isWordPart_eq_false_of_isBlank) ?_
  rintro c ⟨⟩
  rfl

/-- The equals sign is no white space. -/
theorem isBlank_head?_sign (rest : Text) : ∀ c ∈ ('=' :: rest).head?, Text.isBlank c = false := by
  rintro c ⟨⟩
  rfl

/-- A line has the parts of an assignment in one way. -/
theorem toText_injective : Function.Injective toText := by
  intro parts other same
  obtain ⟨sameLead, named⟩ := Text.append_inj_of_run same parts.leadBlank
    (parts.isBlank_head?_name _) other.leadBlank (other.isBlank_head?_name _)
  obtain ⟨sameName, signed⟩ := Text.append_inj_of_run named
    (Text.isWordPart_of_isName parts.isName) (parts.isWordPart_head?_before _)
    (Text.isWordPart_of_isName other.isName) (other.isWordPart_head?_before _)
  obtain ⟨sameBefore, sameRest⟩ := Text.append_inj_of_run signed parts.beforeBlank
    (isBlank_head?_sign _) other.beforeBlank (isBlank_head?_sign _)
  obtain ⟨sameBehind, sameFormula⟩ := Text.append_inj_of_run (List.cons.inj sameRest).2
    parts.behindBlank parts.start other.behindBlank other.start
  cases parts
  cases other
  cases sameLead
  cases sameName
  cases sameBefore
  cases sameBehind
  cases sameFormula
  rfl

end WrittenAssignment

/-- The line as it is written. -/
def WrittenCalculation.toText (parts : WrittenCalculation) : Text :=
  parts.formula ++ '=' :: parts.tail

theorem WrittenCalculation.mem_toText (parts : WrittenCalculation) : '=' ∈ parts.toText := by
  simp [toText]

namespace Line

/-! ### Finding the parts -/

/-- **The program finds the parts of an assignment**, provided that its formula is on one line. -/
theorem assignment?_eq_some_iff (text name formula : Text) :
    assignment? text = some (name, formula) ↔
      '\n' ∉ formula ∧ ∃ parts : WrittenAssignment,
        parts.toText = text ∧ parts.name = name ∧ parts.formula = formula := by
  constructor
  · intro assigns
    obtain ⟨lead, leadBlank, split⟩ := Text.exists_trimStart text
    unfold assignment? at assigns
    dsimp only at assigns
    split at assigns
    next rest found =>
      obtain ⟨before, beforeBlank, splitName⟩ :=
        Text.exists_trimStart ((Text.trimStart text).dropWhile Text.isWordPart)
      obtain ⟨behind, behindBlank, splitSign⟩ := Text.exists_trimStart rest
      split at assigns
      next proper =>
        cases assigns
        simp only [Bool.and_eq_true, Bool.not_eq_true', List.isEmpty_eq_false_iff,
          List.contains_eq_mem, decide_eq_false_iff_not] at proper
        refine ⟨proper.2, ⟨lead, _, before, behind, _, leadBlank, proper.1.1, beforeBlank,
          behindBlank, proper.1.2, Text.head?_dropWhile rest⟩, ?_, rfl, rfl⟩
        rw [WrittenAssignment.toText, ← splitSign, ← found, ← splitName,
          List.takeWhile_append_dropWhile]
        exact split.symm
      next => cases assigns
    next => cases assigns
  · rintro ⟨noFeed, parts, rfl, rfl, rfl⟩
    have inName := Text.isWordPart_of_isName parts.isName
    have border := parts.isWordPart_head?_before (parts.behind ++ parts.formula)
    unfold assignment? WrittenAssignment.toText
    rw [Text.trimStart_append parts.leadBlank (parts.isBlank_head?_name _)]
    dsimp only
    rw [Text.takeWhile_append inName border, Text.dropWhile_append inName border,
      Text.trimStart_append parts.beforeBlank (WrittenAssignment.isBlank_head?_sign _)]
    simp [Text.trimStart_append parts.behindBlank parts.start, parts.isName, parts.nonempty, noFeed]

/-- **The program finds what stands before an equals sign at the end.** -/
theorem calculation?_eq_some_iff (text formula : Text) :
    calculation? text = some formula ↔
      ∃ parts : WrittenCalculation, parts.toText = text ∧ parts.formula = formula := by
  constructor
  · intro calculates
    obtain ⟨tail, tailBlank, split⟩ := Text.exists_trimEnd text
    unfold calculation? at calculates
    split at calculates
    next rest found =>
      cases calculates
      refine ⟨⟨rest.reverse, tail, tailBlank⟩, ?_, rfl⟩
      rw [split, Text.trimEnd, found]
      simp [WrittenCalculation.toText]
    next => cases calculates
  · rintro ⟨parts, rfl, rfl⟩
    have found : parts.toText.reverse.dropWhile Text.isBlank = '=' :: parts.formula.reverse := by
      rw [WrittenCalculation.toText, List.reverse_append, List.reverse_cons, List.append_assoc]
      exact Text.dropWhile_append (fun c isIn => parts.tailBlank c (List.mem_reverse.mp isIn))
        (WrittenAssignment.isBlank_head?_sign _)
    rw [calculation?, found]
    simp

/-- A line with an equals sign is no conversion. -/
theorem convert?_eq_none_of_mem {text : Text} (sign : '=' ∈ text) : convert? text = none := by
  rw [convert?, Option.map_eq_none_iff, Option.eq_none_iff_forall_ne_some]
  intro request asks
  obtain ⟨amount, phrase, words, lead, gap, tail, rfl, leadBlank, gapBlank, tailBlank, isPhrase⟩ :=
    ConversionRequest.exists_written asks
  simp only [List.mem_append] at sign
  rcases sign with inLead | inAmount | inGap | inPhrase | inTail
  · exact absurd (leadBlank _ inLead) (by decide)
  · exact absurd (amount.good.1 _ inAmount) (by decide)
  · exact absurd (gapBlank _ inGap) (by decide)
  · exact absurd (isPhrase.isAlpha_or_isBlank _ inPhrase) (by decide)
  · exact absurd (tailBlank _ inTail) (by decide)

/-! ### The order of recognition -/

/-- The shapes are tried in order, and the first that fits decides. -/
inductive Recognised (text : Text) : Line → Prop
  | blank (isBlank : text.all Text.isBlank = true) : Recognised text .blank
  | conversion {request : ConversionRequest} (notBlank : text.all Text.isBlank = false)
      (asks : ConversionRequest.ofText? text = some request) : Recognised text (.conversion request)
  | assignment {name formula : Text} (notBlank : text.all Text.isBlank = false)
      (noRequest : ConversionRequest.ofText? text = none)
      (assigns : assignment? text = some (name, formula)) :
      Recognised text (.assignment name formula)
  | calculation {formula : Text} (notBlank : text.all Text.isBlank = false)
      (noRequest : ConversionRequest.ofText? text = none) (noAssignment : assignment? text = none)
      (calculates : calculation? text = some formula) : Recognised text (.calculation formula)
  | note (notBlank : text.all Text.isBlank = false)
      (noRequest : ConversionRequest.ofText? text = none) (noAssignment : assignment? text = none)
      (noCalculation : calculation? text = none) : Recognised text .note

theorem recognised_ofText (text : Text) : Recognised text (ofText text) := by
  unfold ofText
  cases blank : text.all Text.isBlank with
  | true => exact .blank blank
  | false =>
    cases request : ConversionRequest.ofText? text with
    | some asked => exact .conversion blank request
    | none =>
      cases assigned : assignment? text with
      | some parts => exact .assignment blank request assigned
      | none =>
        cases calculated : calculation? text with
        | some formula => exact .calculation blank request assigned calculated
        | none => exact .note blank request assigned calculated

/-- A line is of one kind only. -/
theorem Recognised.eq_ofText {text : Text} {kind : Line} (recognised : Recognised text kind) :
    ofText text = kind := by
  unfold ofText
  cases recognised with
  | blank isBlank => rw [if_pos isBlank]
  | conversion notBlank asks =>
    rw [notBlank, asks]
    rfl
  | assignment notBlank noRequest assigns =>
    rw [notBlank, noRequest, assigns]
    rfl
  | calculation notBlank noRequest noAssignment calculates =>
    rw [notBlank, noRequest, noAssignment, calculates]
    rfl
  | note notBlank noRequest noAssignment noCalculation =>
    rw [notBlank, noRequest, noAssignment, noCalculation]
    rfl

theorem ofText_eq_iff (text : Text) (kind : Line) :
    ofText text = kind ↔ Recognised text kind := by
  constructor
  · rintro rfl
    exact recognised_ofText text
  · exact Recognised.eq_ofText

variable {text : Text}

theorem ofText_eq_blank_iff : ofText text = .blank ↔ text.all Text.isBlank = true := by
  rw [ofText_eq_iff]
  constructor
  · intro recognised
    cases recognised with
    | blank isBlank => exact isBlank
  · exact .blank

theorem ofText_eq_conversion_iff (request : ConversionRequest) :
    ofText text = .conversion request ↔
      text.all Text.isBlank = false ∧ ConversionRequest.ofText? text = some request := by
  rw [ofText_eq_iff]
  constructor
  · intro recognised
    cases recognised with
    | conversion notBlank asks => exact ⟨notBlank, asks⟩
  · rintro ⟨notBlank, asks⟩
    exact .conversion notBlank asks

theorem ofText_eq_assignment_iff (name formula : Text) :
    ofText text = .assignment name formula ↔
      text.all Text.isBlank = false ∧ ConversionRequest.ofText? text = none ∧
        assignment? text = some (name, formula) := by
  rw [ofText_eq_iff]
  constructor
  · intro recognised
    cases recognised with
    | assignment notBlank noRequest assigns => exact ⟨notBlank, noRequest, assigns⟩
  · rintro ⟨notBlank, noRequest, assigns⟩
    exact .assignment notBlank noRequest assigns

theorem ofText_eq_calculation_iff (formula : Text) :
    ofText text = .calculation formula ↔
      text.all Text.isBlank = false ∧ ConversionRequest.ofText? text = none ∧
        assignment? text = none ∧ calculation? text = some formula := by
  rw [ofText_eq_iff]
  constructor
  · intro recognised
    cases recognised with
    | calculation notBlank noRequest noAssignment calculates =>
      exact ⟨notBlank, noRequest, noAssignment, calculates⟩
  · rintro ⟨notBlank, noRequest, noAssignment, calculates⟩
    exact .calculation notBlank noRequest noAssignment calculates

theorem ofText_eq_note_iff :
    ofText text = .note ↔
      text.all Text.isBlank = false ∧ ConversionRequest.ofText? text = none ∧
        assignment? text = none ∧ calculation? text = none := by
  rw [ofText_eq_iff]
  constructor
  · intro recognised
    cases recognised with
    | note notBlank noRequest noAssignment noCalculation =>
      exact ⟨notBlank, noRequest, noAssignment, noCalculation⟩
  · rintro ⟨notBlank, noRequest, noAssignment, noCalculation⟩
    exact .note notBlank noRequest noAssignment noCalculation

/-! ### Kinds and shapes -/

/-- Within one line an assignment is recognised from its shape alone. -/
theorem exists_written_iff (noFeed : '\n' ∉ text) (name formula : Text) :
    (∃ parts : WrittenAssignment,
      parts.toText = text ∧ parts.name = name ∧ parts.formula = formula) ↔
        assignment? text = some (name, formula) := by
  rw [assignment?_eq_some_iff, iff_and_self]
  rintro ⟨parts, rfl, -, rfl⟩ isFeed
  exact noFeed (by simp [WrittenAssignment.toText, isFeed])

theorem forall_assignment_ne_iff (noFeed : '\n' ∉ text) :
    (∀ parts : WrittenAssignment, parts.toText ≠ text) ↔ assignment? text = none := by
  rw [Option.eq_none_iff_forall_ne_some, Prod.forall]
  simp only [Ne, ← exists_written_iff noFeed]
  constructor
  · rintro none _ _ ⟨parts, same, -⟩
    exact none parts same
  · intro none parts same
    exact none _ _ ⟨parts, same, rfl, rfl⟩

theorem forall_calculation_ne_iff :
    (∀ parts : WrittenCalculation, parts.toText ≠ text) ↔ calculation? text = none := by
  rw [Option.eq_none_iff_forall_ne_some]
  simp only [Ne, calculation?_eq_some_iff]
  constructor
  · rintro none _ ⟨parts, same, -⟩
    exact none parts same
  · intro none parts same
    exact none _ ⟨parts, same, rfl⟩

/-- No conversion has the shape of an assignment or of a calculation. -/
theorem shapes_ne_of_convert? (converts : (convert? text).isSome = true) :
    (∀ parts : WrittenAssignment, parts.toText ≠ text) ∧
      ∀ parts : WrittenCalculation, parts.toText ≠ text := by
  constructor
  · rintro parts rfl
    rw [convert?_eq_none_of_mem parts.mem_toText] at converts
    cases converts
  · rintro parts rfl
    rw [convert?_eq_none_of_mem parts.mem_toText] at converts
    cases converts

/-- **Which kind a line is of.** A line is blank if it has only white space, and otherwise a
conversion if it has the answer of one, an assignment if it has the parts of one, a calculation if
it ends with an equals sign, and else a note. An assignment has its parts in one way only, and no
conversion has the shape of an assignment or of a calculation. -/
theorem ofText_kind {text : Text} (noFeed : '\n' ∉ text) :
    (ofText text = .blank ↔ text.all Text.isBlank = true) ∧
    (∀ answer, (∃ request, ofText text = .conversion request ∧ request.answer = answer) ↔
      text.all Text.isBlank = false ∧ convert? text = some answer) ∧
    (∀ name formula, ofText text = .assignment name formula ↔
      text.all Text.isBlank = false ∧ convert? text = none ∧
        ∃ parts : WrittenAssignment,
          parts.toText = text ∧ parts.name = name ∧ parts.formula = formula) ∧
    (∀ formula, ofText text = .calculation formula ↔
      text.all Text.isBlank = false ∧ convert? text = none ∧
        (∀ parts : WrittenAssignment, parts.toText ≠ text) ∧
        ∃ parts : WrittenCalculation, parts.toText = text ∧ parts.formula = formula) ∧
    (ofText text = .note ↔ text.all Text.isBlank = false ∧ convert? text = none ∧
      (∀ parts : WrittenAssignment, parts.toText ≠ text) ∧
      ∀ parts : WrittenCalculation, parts.toText ≠ text) ∧
    (∀ parts other : WrittenAssignment, parts.toText = text → other.toText = text →
      parts = other) ∧
    ((convert? text).isSome = true → (∀ parts : WrittenAssignment, parts.toText ≠ text) ∧
      ∀ parts : WrittenCalculation, parts.toText ≠ text) := by
  have noConversion : convert? text = none ↔ ConversionRequest.ofText? text = none :=
    Option.map_eq_none_iff
  have noAssignment := forall_assignment_ne_iff noFeed
  refine ⟨ofText_eq_blank_iff, fun answer => ?_, fun name formula => ?_, fun formula => ?_, ?_,
    fun parts other first second => ?_, shapes_ne_of_convert?⟩
  · simp only [ofText_eq_conversion_iff, convert?, Option.map_eq_some_iff, and_assoc,
      exists_and_left]
  · rw [ofText_eq_assignment_iff, noConversion, exists_written_iff noFeed]
  · rw [ofText_eq_calculation_iff, noConversion, noAssignment, ← calculation?_eq_some_iff]
  · rw [ofText_eq_note_iff, noConversion, noAssignment, forall_calculation_ne_iff]
  · exact WrittenAssignment.toText_injective (first.trans second.symm)

/-- A line with two equals signs has the shape of a calculation, but it is an assignment. -/
theorem ofText_kind_twoSigns :
    ofText "x = 2 =".toList = .assignment "x".toList "2 =".toList ∧
      (∃ parts : WrittenCalculation, parts.toText = "x = 2 =".toList) ∧
      convert? "x = 2 =".toList = none := by
  obtain ⟨-, -, assigns, -, -, -, apart⟩ := ofText_kind
    (show '\n' ∉ "x = 2 =".toList by decide)
  have calculates : ∃ parts : WrittenCalculation, parts.toText = "x = 2 =".toList :=
    ⟨⟨"x = 2 ".toList, [], List.forall_mem_nil _⟩, rfl⟩
  have none : convert? "x = 2 =".toList = none := by
    rw [← Option.not_isSome_iff_eq_none]
    intro converts
    obtain ⟨parts, same⟩ := calculates
    exact (apart converts).2 parts same
  have start : ∀ c ∈ "2 =".toList.head?, Text.isBlank c = false := by
    rintro c ⟨⟩
    rfl
  refine ⟨(assigns _ _).mpr ⟨rfl, none, ?_⟩, calculates, none⟩
  exact ⟨⟨[], "x".toList, [' '], [' '], "2 =".toList, List.forall_mem_nil _, rfl,
    Text.isBlank_of_mem_space, Text.isBlank_of_mem_space, List.cons_ne_nil _ _, start⟩,
    rfl, rfl, rfl⟩

end Line

end Worksheet
