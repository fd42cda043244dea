/-
**Words and the last `to` among them.**

The units of a conversion are words of ASCII letters with white space between them, and so is the
whole text from the first unit to the last. Cut into runs it is word, gap, word and so on, and a
word that has others on both sides has runs on both sides of it. So the last `to` among the inner
words is the last one among the inner runs, and the two units are what stands before it and behind
it, without the gap on either side.

* `Phrase` is a text with its words, and `exists_phrase` says which texts have words;
* `Phrase.append` and `Phrase.split` put phrases together and take them apart between two words;
* `SplitsAtLastTo` is a phrase with the units on both sides of its last inner `to`;
* `splitAtTo?_eq_some_iff`: the program splits phrases there and nowhere else.
-/

import Worksheet.Conversion
import Worksheet.Proofs.Text.WhiteSpace

namespace Worksheet

namespace ConversionRequest

/-! ### Phrases -/

/-- A word of ASCII letters. -/
def IsWord (text : Text) : Prop :=
  text ≠ [] ∧ ∀ c ∈ text, c.isAlpha = true

/-- What stands between two words. -/
def IsGap (text : Text) : Prop :=
  text ≠ [] ∧ ∀ c ∈ text, Text.isBlank c = true

/-- The text consists of these words, with white space between each two of them. -/
inductive Phrase : Text → List Text → Prop
  | single {word : Text} (isWord : IsWord word) : Phrase word [word]
  | cons {word gap rest : Text} {words : List Text} (isWord : IsWord word) (isGap : IsGap gap)
      (others : Phrase rest words) : Phrase (word ++ (gap ++ rest)) (word :: words)

theorem not_isGap_of_isWord {text : Text} (isWord : IsWord text) : ¬ IsGap text := by
  rintro ⟨nonempty, blanks⟩
  obtain ⟨c, others, rfl⟩ := List.exists_cons_of_ne_nil nonempty
  have blank := blanks c List.mem_cons_self
  rw [Text.isBlank_eq_false_of_isAlpha (isWord.2 c List.mem_cons_self)] at blank
  cases blank

section Phrases

variable {text gap front back : Text} {words behind : List Text}

theorem Phrase.words_ne_nil (phrase : Phrase text words) : words ≠ [] := by
  cases phrase <;> exact List.cons_ne_nil _ _

theorem Phrase.ne_nil (phrase : Phrase text words) : text ≠ [] := by
  cases phrase with
  | single isWord => exact isWord.1
  | cons isWord isGap others => exact List.append_ne_nil_of_left_ne_nil isWord.1 _

/-- A phrase starts with a letter. -/
theorem Phrase.isAlpha_head? (phrase : Phrase text words) :
    ∀ c ∈ text.head?, c.isAlpha = true := by
  cases phrase with
  | single isWord => exact fun c isHead => isWord.2 c (List.mem_of_head? isHead)
  | cons isWord isGap others => exact Text.forall_head?_of_forall_mem isWord.1 isWord.2 _

/-- A phrase ends with a letter. -/
theorem Phrase.isAlpha_getLast? (phrase : Phrase text words) :
    ∀ c ∈ text.getLast?, c.isAlpha = true := by
  induction phrase with
  | single isWord => exact fun c isLast => isWord.2 c (List.mem_of_getLast? isLast)
  | cons isWord isGap others ih =>
    rwa [List.getLast?_append_of_ne_nil _ (List.append_ne_nil_of_right_ne_nil _ others.ne_nil),
      List.getLast?_append_of_ne_nil _ others.ne_nil]

/-- There are letters and white space in a phrase and nothing else. -/
theorem Phrase.isAlpha_or_isBlank (phrase : Phrase text words) :
    ∀ c ∈ text, c.isAlpha = true ∨ Text.isBlank c = true := by
  induction phrase with
  | single isWord => exact fun c isIn => Or.inl (isWord.2 c isIn)
  | cons isWord isGap others ih =>
    rw [List.forall_mem_append, List.forall_mem_append]
    exact ⟨fun c isIn => Or.inl (isWord.2 c isIn), fun c isIn => Or.inr (isGap.2 c isIn), ih⟩

/-- Two phrases with white space between them are one. -/
theorem Phrase.append (first : Phrase front words) (isGap : IsGap gap)
    (second : Phrase back behind) : Phrase (front ++ (gap ++ back)) (words ++ behind) := by
  induction first with
  | single isWord => exact .cons isWord isGap second
  | cons isWord isGap others ih =>
    rw [List.append_assoc, List.append_assoc]
    exact .cons isWord isGap ih

/-- A phrase can be taken apart between any two of its words. -/
theorem Phrase.split (phrase : Phrase text (words ++ behind)) (before : words ≠ [])
    (later : behind ≠ []) :
    ∃ front gap back, text = front ++ (gap ++ back) ∧ Phrase front words ∧ IsGap gap ∧
      Phrase back behind := by
  induction words generalizing text with
  | nil => exact absurd rfl before
  | cons word others ih =>
    generalize all : word :: others ++ behind = everything at phrase
    cases phrase with
    | single isWord =>
      rw [List.cons_append, List.cons.injEq, List.append_eq_nil_iff] at all
      exact absurd all.2.2 later
    | cons isWord isGap rest =>
      cases all
      cases others with
      | nil => exact ⟨_, _, _, rfl, .single isWord, isGap, rest⟩
      | cons next more =>
        obtain ⟨front, gap, back, rfl, first, isGap', second⟩ := ih rest (List.cons_ne_nil _ _)
        refine ⟨_, gap, back, ?_, .cons isWord isGap first, isGap', second⟩
        simp only [List.append_assoc]

/-- Letters and white space are a phrase if no white space stands at the ends. -/
theorem exists_phrase {text : Text}
    (letters : ∀ c ∈ text, c.isAlpha = true ∨ Text.isBlank c = true) (nonempty : text ≠ [])
    (start : ∀ c ∈ text.head?, Text.isBlank c = false)
    (ends : ∀ c ∈ text.getLast?, Text.isBlank c = false) : ∃ words, Phrase text words := by
  match text with
  | [] => exact absurd rfl nonempty
  | c :: rest =>
    have letter : c.isAlpha = true := by
      refine (letters c List.mem_cons_self).resolve_right ?_
      rw [start c rfl]
      exact Bool.false_ne_true
    obtain ⟨word, behind, split, wordNonempty, inWord, border, shorter⟩ :=
      Text.exists_run letter rest
    rw [split] at letters ends ⊢
    cases behind with
    | nil =>
      rw [List.append_nil]
      exact ⟨_, .single ⟨wordNonempty, inWord⟩⟩
    | cons d others =>
      have blank : Text.isBlank d = true := by
        refine (letters d (by simp)).resolve_left ?_
        rw [border d rfl]
        exact Bool.false_ne_true
      obtain ⟨gap, back, splitGap, gapNonempty, inGap, borderGap, shorterGap⟩ :=
        Text.exists_run blank others
      rw [splitGap] at letters ends ⊢
      have backNonempty : back ≠ [] := by
        rintro rfl
        rw [List.append_nil, List.getLast?_append_of_ne_nil _ gapNonempty] at ends
        have noBlank := ends _ (List.getLast?_eq_some_getLast gapNonempty)
        rw [inGap _ (List.getLast_mem gapNonempty)] at noBlank
        cases noBlank
      rw [List.getLast?_append_of_ne_nil _ (List.append_ne_nil_of_right_ne_nil _ backNonempty),
        List.getLast?_append_of_ne_nil _ backNonempty] at ends
      have shorterBack := shorterGap.trans shorter
      obtain ⟨words, phrase⟩ := exists_phrase
        (fun e isIn => letters e (List.mem_append_right _ (List.mem_append_right _ isIn)))
        backNonempty borderGap ends
      exact ⟨_, .cons ⟨wordNonempty, inWord⟩ ⟨gapNonempty, inGap⟩ phrase⟩
termination_by text.length
decreasing_by exact shorterBack

/-! ### Runs of a phrase -/

theorem runs_word {word : Text} (isWord : IsWord word) : runs word = [word] :=
  Text.splitBy_uniform false (fun c isIn => Text.isBlank_eq_false_of_isAlpha (isWord.2 c isIn))
    isWord.1

/-- The runs of two phrases with white space between them. -/
theorem Phrase.runs_append (first : Phrase front words) (isGap : IsGap gap)
    (second : Phrase back behind) :
    runs (front ++ (gap ++ back)) = runs front ++ gap :: runs back := by
  have start := Text.forall_head?_of_forall_mem isGap.1 isGap.2 back
  unfold runs
  rw [Text.splitBy_append, Text.splitBy_append, Text.splitBy_uniform true isGap.2 isGap.1]
  · rfl
  · intro c isLast d isHead
    rw [isGap.2 c (List.mem_of_getLast? isLast),
      Text.isBlank_eq_false_of_isAlpha (second.isAlpha_head? d isHead)]
    exact Bool.noConfusion
  · intro c isLast d isHead
    rw [start d isHead, Text.isBlank_eq_false_of_isAlpha (first.isAlpha_getLast? c isLast)]
    exact Bool.false_ne_true

theorem Phrase.runs_ne_nil (phrase : Phrase text words) : runs text ≠ [] := by
  cases phrase with
  | single isWord =>
    rw [runs_word isWord]
    exact List.cons_ne_nil _ _
  | cons isWord isGap others =>
    rw [(Phrase.single isWord).runs_append isGap others]
    simp

/-- A word among the runs of a phrase is one of its words, with others on the sides where there are
other runs. -/
theorem Phrase.exists_of_runs (phrase : Phrase text words) {word : Text} (isWord : IsWord word)
    {before later : List Text} (split : runs text = before ++ word :: later) :
    ∃ front back, words = front ++ word :: back ∧ (before ≠ [] → front ≠ []) ∧
      (later ≠ [] → back ≠ []) := by
  induction phrase generalizing before with
  | single isWord' =>
    rw [runs_word isWord'] at split
    cases before with
    | nil =>
      cases split
      exact ⟨[], [], rfl, id, id⟩
    | cons run others =>
      rw [List.cons_append, List.cons.injEq] at split
      simp at split
  | cons isWord' isGap others ih =>
    rw [(Phrase.single isWord').runs_append isGap others, runs_word isWord'] at split
    match before with
    | [] =>
      cases split
      exact ⟨[], _, rfl, id, fun _ => others.words_ne_nil⟩
    | [_] =>
      cases split
      exact absurd isGap (not_isGap_of_isWord isWord)
    | _ :: _ :: before =>
      rw [List.singleton_append, List.cons_append, List.cons_append, List.cons.injEq,
        List.cons.injEq] at split
      obtain ⟨front, back, rfl, -, atEnd⟩ := ih split.2.2
      exact ⟨_ :: front, back, rfl, fun _ => List.cons_ne_nil _ _, atEnd⟩

end Phrases

/-! ### The last inner `to` -/

/-- The word between two units. -/
def separator : Text :=
  "to".toList

theorem isWord_separator : IsWord separator :=
  ⟨List.cons_ne_nil _ _, List.all_eq_true.mp rfl⟩

/-- The phrase is the source unit, `to` and the target unit, with white space between them, and no
word of the target unit but the last is another `to`. -/
def SplitsAtLastTo (phrase source target : Text) : Prop :=
  ∃ before behind front back, phrase = source ++ (before ++ (separator ++ (behind ++ target))) ∧
    IsGap before ∧ IsGap behind ∧ Phrase source front ∧ Phrase target back ∧
    separator ∉ back.dropLast

/-- A `to` with words on both sides is one of the words. -/
def HasInnerTo (words : List Text) : Prop :=
  ∃ front back, words = front ++ separator :: back ∧ front ≠ [] ∧ back ≠ []

theorem HasInnerTo.three_le_length {words : List Text} (inner : HasInnerTo words) :
    3 ≤ words.length := by
  obtain ⟨front, back, rfl, before, later⟩ := inner
  have := List.length_pos_of_ne_nil before
  have := List.length_pos_of_ne_nil later
  rw [List.length_append, List.length_cons]
  omega

/-- Among the inner words that are `to` there is a last one. -/
theorem HasInnerTo.exists_last {words : List Text} (inner : HasInnerTo words) :
    ∃ front back, words = front ++ separator :: back ∧ front ≠ [] ∧ back ≠ [] ∧
      separator ∉ back.dropLast := by
  obtain ⟨front, back, rfl, before, later⟩ := inner
  obtain ⟨behind, others, split, noOther⟩ := List.eq_append_cons_of_mem
    (List.mem_reverse.mpr (List.mem_cons_self (a := separator) (l := back.dropLast)))
  have turned : separator :: back.dropLast = others.reverse ++ separator :: behind.reverse := by
    rw [← List.reverse_inj, split]
    simp
  refine ⟨front ++ others.reverse, behind.reverse ++ [back.getLast later], ?_,
    List.append_ne_nil_of_left_ne_nil before _, by simp, ?_⟩
  · rw [List.append_assoc, ← List.cons_append, ← List.append_assoc others.reverse, ← turned,
      List.cons_append, List.dropLast_append_getLast]
  · rw [List.dropLast_concat, List.mem_reverse]
    exact noOther

theorem Phrase.exists_splitsAtLastTo {text : Text} {words : List Text} (phrase : Phrase text words)
    (inner : HasInnerTo words) : ∃ source target, SplitsAtLastTo text source target := by
  obtain ⟨front, back, rfl, before, later, last⟩ := inner.exists_last
  obtain ⟨source, gap, rest, rfl, first, isGap, behind⟩ :=
    phrase.split before (List.cons_ne_nil _ _)
  rw [← List.singleton_append] at behind
  obtain ⟨word, gap', target, rfl, middle, isGap', second⟩ :=
    behind.split (List.cons_ne_nil _ _) later
  generalize isMiddle : [separator] = all at middle
  cases middle with
  | cons isWord isGap others => cases isMiddle; exact absurd rfl others.words_ne_nil
  | single isWord =>
    cases isMiddle
    exact ⟨source, target, gap, gap', front, back, rfl, isGap, isGap', first, second, last⟩

/-- The runs that the program looks for, with their places. -/
def isInnerTo (count : Nat) (part : Text × Nat) : Bool :=
  2 ≤ part.2 && part.2 + 2 < count && part.1 == separator

theorem splitAtTo?_eq (text : Text) :
    splitAtTo? text = ((runs text).zipIdx.filter (isInnerTo (runs text).length)).getLast?.map
      fun part => (((runs text).take (part.2 - 1)).flatten,
        ((runs text).drop (part.2 + 2)).flatten) :=
  rfl

theorem isInnerTo_iff {count i : Nat} {run : Text} :
    isInnerTo count (run, i) = true ↔ 2 ≤ i ∧ i + 2 < count ∧ run = separator := by
  simp only [isInnerTo, Bool.and_eq_true, decide_eq_true_eq, beq_iff_eq, and_assoc]

/-- A run that is `to` is one of the words, with others before it unless it is the first run, and
others behind it unless it is the last. -/
theorem Phrase.exists_of_mem_zipIdx {text : Text} {words : List Text} (phrase : Phrase text words)
    {start i : Nat} (isIn : (separator, i) ∈ (runs text).zipIdx start) :
    ∃ front back, words = front ++ separator :: back ∧ (start < i → front ≠ []) ∧
      (i + 1 < start + (runs text).length → back ≠ []) := by
  obtain ⟨low, high, here⟩ := List.mem_zipIdx isIn
  have split : runs text = (runs text).take (i - start) ++ separator ::
      (runs text).drop (i - start + 1) := by
    rw [here, List.getElem_cons_drop, List.take_append_drop]
  obtain ⟨front, back, isWords, atStart, atEnd⟩ := phrase.exists_of_runs isWord_separator split
  refine ⟨front, back, isWords, fun notFirst => atStart ?_, fun notLast => atEnd ?_⟩
  · rw [Ne, List.take_eq_nil_iff, not_or]
    exact ⟨by omega, phrase.runs_ne_nil⟩
  · rw [Ne, List.drop_eq_nil_iff]
    omega

/-- Behind the last inner `to` there is no other. -/
theorem filter_isInnerTo_eq_nil {target : Text} {back : List Text} (phrase : Phrase target back)
    (last : separator ∉ back.dropLast) (start : Nat) :
    ((runs target).zipIdx start).filter (isInnerTo (start + (runs target).length)) = [] := by
  rw [List.filter_eq_nil_iff]
  rintro ⟨run, i⟩ isIn isInner
  obtain ⟨-, notLast, rfl⟩ := isInnerTo_iff.mp isInner
  obtain ⟨front, later, rfl, -, atEnd⟩ := phrase.exists_of_mem_zipIdx isIn
  refine last ?_
  rw [List.dropLast_append_of_ne_nil (List.cons_ne_nil _ _),
    List.dropLast_cons_of_ne_nil (atEnd (by omega))]
  simp

theorem isInnerTo_gap {gap : Text} (isGap : IsGap gap) (count i : Nat) :
    isInnerTo count (gap, i) = false := by
  have noSeparator : (gap == separator) = false := by
    rw [beq_eq_false_iff_ne]
    rintro rfl
    exact not_isGap_of_isWord isWord_separator isGap
  rw [isInnerTo, noSeparator, Bool.and_false]

/-- Between two units `to` is an inner run. -/
theorem isInnerTo_separator {source target : Text} {front back : List Text}
    (first : Phrase source front) (second : Phrase target back) :
    isInnerTo ((runs source).length + 3 + (runs target).length)
      (separator, (runs source).length + 1) = true := by
  have sourceRuns := List.length_pos_of_ne_nil first.runs_ne_nil
  have targetRuns := List.length_pos_of_ne_nil second.runs_ne_nil
  exact isInnerTo_iff.mpr ⟨by omega, by omega, rfl⟩

/-- The program finds the last inner `to`. -/
theorem splitAtTo?_of_splitsAtLastTo {text source target : Text}
    (splits : SplitsAtLastTo text source target) : splitAtTo? text = some (source, target) := by
  obtain ⟨before, behind, front, back, rfl, isGap, isGap', first, second, last⟩ := splits
  have middle : Phrase separator [separator] := .single isWord_separator
  have allRuns : runs (source ++ (before ++ (separator ++ (behind ++ target)))) =
      runs source ++ before :: separator :: behind :: runs target := by
    rw [first.runs_append isGap (middle.append isGap' second), middle.runs_append isGap' second,
      runs_word isWord_separator]
    rfl
  have count : (runs source ++ before :: separator :: behind :: runs target).length =
      (runs source).length + 3 + (runs target).length := by
    simp only [List.length_append, List.length_cons]
    omega
  have found := isInnerTo_separator first second
  have noneBehind := filter_isInnerTo_eq_nil second last ((runs source).length + 3)
  have joined (phrase : Text) : (runs phrase).flatten = phrase := List.flatten_splitBy _ _
  rw [splitAtTo?_eq, allRuns, count, List.zipIdx_append, List.zipIdx_cons, List.zipIdx_cons,
    List.zipIdx_cons, List.filter_append, List.filter_cons, List.filter_cons, List.filter_cons,
    Nat.zero_add, isInnerTo_gap isGap, isInnerTo_gap isGap', found, noneBehind]
  simp only [Bool.false_eq_true, if_false, if_true, List.getLast?_append, List.getLast?_singleton,
    Option.some_or, Option.map_some, Nat.add_sub_cancel, List.take_left, joined,
    Nat.add_assoc, List.drop_length_add_append, List.drop_succ_cons, List.drop_zero]

/-- A phrase is split just if one of its inner words is `to`. -/
theorem isSome_splitAtTo?_iff {text : Text} {words : List Text} (phrase : Phrase text words) :
    (splitAtTo? text).isSome = true ↔ HasInnerTo words := by
  constructor
  · rw [splitAtTo?_eq, Option.isSome_map, Option.isSome_iff_exists]
    rintro ⟨⟨run, i⟩, isLast⟩
    obtain ⟨isIn, isInner⟩ := List.mem_filter.mp (List.mem_of_getLast? isLast)
    obtain ⟨notFirst, notLast, rfl⟩ := isInnerTo_iff.mp isInner
    obtain ⟨front, back, isWords, atStart, atEnd⟩ := phrase.exists_of_mem_zipIdx isIn
    exact ⟨front, back, isWords, atStart (by omega), atEnd (by omega)⟩
  · intro inner
    obtain ⟨source, target, splits⟩ := phrase.exists_splitsAtLastTo inner
    rw [splitAtTo?_of_splitsAtLastTo splits]
    rfl

/-- **A phrase is split at its last inner `to`.** -/
theorem splitAtTo?_eq_some_iff {text : Text} {words : List Text} (phrase : Phrase text words)
    (source target : Text) :
    splitAtTo? text = some (source, target) ↔ SplitsAtLastTo text source target := by
  refine ⟨fun split => ?_, splitAtTo?_of_splitsAtLastTo⟩
  have inner := (isSome_splitAtTo?_iff phrase).mp (by rw [split]; rfl)
  obtain ⟨source', target', splits⟩ := phrase.exists_splitsAtLastTo inner
  have same := splitAtTo?_of_splitsAtLastTo splits
  rw [split] at same
  cases same
  exact splits

end ConversionRequest

end Worksheet
