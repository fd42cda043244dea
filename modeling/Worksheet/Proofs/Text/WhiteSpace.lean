/-
**Runs and white space.**

The readers of the library take as many characters of a class as there are at the start of a text,
or leave out the white space at an end of it. In a text that is written piece by piece they find the
pieces, as long as no piece goes on with characters of the class.

* `forall_head?_append` and `forall_head?_of_forall_mem`: what a text of several parts starts with;
* `takeWhile_append` and `dropWhile_append` cut a text behind a run, `exists_run` finds one;
* `splitBy_append` and `splitBy_uniform` cut a text into all its runs;
* `trimStart_append`, `trimEnd_append` and `trim_append` remove the white space at the ends;
* `exists_trimStart`, `exists_trimEnd` and `exists_trim` say what has been removed;
* `trimStart_append_cases`, `trim_around` and `read_trimStart_append` are about white space added to
  a text of any kind.
-/

import Mathlib.Data.List.Basic
import Mathlib.Data.List.SplitBy
import Mathlib.Data.List.TakeWhile
import Worksheet.Expr.Token

namespace Worksheet

namespace Text

/-! ### Characters -/

/-- White space is no part of a word. -/
theorem isWordPart_eq_false_of_isBlank {c : Char} (blank : isBlank c = true) :
    isWordPart c = false := by
  rw [← Bool.not_eq_true]
  intro part
  rw [isBlank_eq_false_of_isWordPart c part] at blank
  cases blank

/-- Letters are no white space. -/
theorem isBlank_eq_false_of_isAlpha {c : Char} (letter : c.isAlpha = true) :
    isBlank c = false := by
  refine isBlank_eq_false_of_isWordPart c (isWordPart_of_isWordStart c ?_)
  rw [isWordStart, letter, Bool.true_or]

/-- White space is no part of a numeral. -/
theorem isNumeralPart_eq_false_of_isBlank {c : Char} (blank : isBlank c = true) :
    Token.isNumeralPart c = false := by
  rw [Token.isNumeralPart, Bool.or_eq_false_iff]
  constructor
  · rw [← Bool.not_eq_true]
    intro digit
    rw [isBlank_eq_false_of_isWordPart c (isWordPart_of_isDigit c digit)] at blank
    cases blank
  · rw [beq_eq_false_iff_ne]
    rintro rfl
    exact absurd blank (by decide)

/-- There is no white space in a numeral. -/
theorem isBlank_eq_false_of_isNumeralPart {c : Char} (part : Token.isNumeralPart c = true) :
    isBlank c = false := by
  rw [← Bool.not_eq_true]
  intro blank
  rw [isNumeralPart_eq_false_of_isBlank blank] at part
  cases part

/-- White space is no digit. -/
theorem isDigit_eq_false_of_isBlank {c : Char} (blank : isBlank c = true) : c.isDigit = false :=
  (Bool.or_eq_false_iff.mp (isNumeralPart_eq_false_of_isBlank blank)).1

/-- A space is white space. -/
theorem isBlank_of_mem_space : ∀ c ∈ [' '], isBlank c = true :=
  List.forall_mem_singleton.mpr rfl

/-! ### What a text starts with -/

/-- A text starts with what its first part is made of, if there is a first part. -/
theorem forall_head?_of_forall_mem {holds : Char → Prop} {front : Text} (nonempty : front ≠ [])
    (all : ∀ c ∈ front, holds c) (back : Text) : ∀ c ∈ (front ++ back).head?, holds c := by
  rw [List.head?_append_of_ne_nil _ nonempty]
  exact fun c isHead => all c (List.mem_of_head? isHead)

/-- What a text starts with is what its first part starts with, or its second. -/
theorem forall_head?_append {holds : Char → Prop} {front back : Text}
    (ofFront : ∀ c ∈ front.head?, holds c) (ofBack : ∀ c ∈ back.head?, holds c) :
    ∀ c ∈ (front ++ back).head?, holds c := by
  intro c isHead
  rw [List.head?_append] at isHead
  rcases Option.or_eq_some_iff.mp isHead with inFront | ⟨-, inBack⟩
  · exact ofFront c inFront
  · exact ofBack c inBack

/-- A class without white space does not go on in white space. -/
theorem border_of_isBlank {p : Char → Bool} {tail : Text}
    (tailBlank : ∀ c ∈ tail, isBlank c = true) (noBlank : ∀ {c}, isBlank c = true → p c = false) :
    ∀ c ∈ tail.head?, p c = false :=
  fun c isHead => noBlank (tailBlank c (List.mem_of_head? isHead))

/-! ### Runs -/

section Runs

variable {p : Char → Bool} {front back : Text}

theorem takeWhile_append (inside : ∀ c ∈ front, p c = true)
    (border : ∀ c ∈ back.head?, p c = false) : (front ++ back).takeWhile p = front := by
  rw [List.takeWhile_append_of_pos inside]
  cases back with
  | nil => exact List.append_nil front
  | cons c others => rw [List.takeWhile_cons_of_neg (by simp [border c rfl]), List.append_nil]

theorem dropWhile_append (inside : ∀ c ∈ front, p c = true)
    (border : ∀ c ∈ back.head?, p c = false) : (front ++ back).dropWhile p = back := by
  rw [List.dropWhile_append_of_pos inside]
  cases back with
  | nil => rfl
  | cons c others => rw [List.dropWhile_cons_of_neg (by simp [border c rfl])]

/-- What does not start with the class leaves the runs in front of it as they are. -/
theorem takeWhile_append_left (border : ∀ c ∈ back.head?, p c = false) (text : Text) :
    (text ++ back).takeWhile p = text.takeWhile p := by
  induction text with
  | nil => exact takeWhile_append (List.forall_mem_nil _) border
  | cons c rest ih => rw [List.cons_append, List.takeWhile_cons, List.takeWhile_cons, ih]

theorem dropWhile_append_left (border : ∀ c ∈ back.head?, p c = false) (text : Text) :
    (text ++ back).dropWhile p = text.dropWhile p ++ back := by
  induction text with
  | nil => exact dropWhile_append (List.forall_mem_nil _) border
  | cons c rest ih =>
    rw [List.cons_append, List.dropWhile_cons, List.dropWhile_cons, ih]
    split <;> rfl

/-- Behind a run there is a character of another class. -/
theorem head?_dropWhile (text : Text) : ∀ c ∈ (text.dropWhile p).head?, p c = false := by
  intro c isHead
  have nonempty : text.dropWhile p ≠ [] := by
    intro empty
    rw [empty] at isHead
    cases isHead
  rw [List.head?_eq_some_head nonempty] at isHead
  cases isHead
  exact List.head_dropWhile_not p nonempty

/-- A run, as far as it goes, and what stands behind it are determined by the whole. -/
theorem append_inj_of_run {front' back' : Text} (same : front ++ back = front' ++ back')
    (inside : ∀ c ∈ front, p c = true) (border : ∀ c ∈ back.head?, p c = false)
    (inside' : ∀ c ∈ front', p c = true) (border' : ∀ c ∈ back'.head?, p c = false) :
    front = front' ∧ back = back' := by
  constructor
  · rw [← takeWhile_append inside border, same, takeWhile_append inside' border']
  · rw [← dropWhile_append inside border, same, dropWhile_append inside' border']

/-- A text starts with a run of the class of its first character. -/
theorem exists_run {c : Char} (inside : p c = true) (rest : Text) :
    ∃ run behind, c :: rest = run ++ behind ∧ run ≠ [] ∧ (∀ d ∈ run, p d = true) ∧
      (∀ d ∈ behind.head?, p d = false) ∧ behind.length < (c :: rest).length := by
  refine ⟨c :: rest.takeWhile p, rest.dropWhile p, ?_, List.cons_ne_nil _ _, ?_,
    head?_dropWhile rest, ?_⟩
  · rw [List.cons_append, List.takeWhile_append_dropWhile]
  · rw [List.forall_mem_cons]
    exact ⟨inside, fun d isIn => List.mem_takeWhile_imp isIn⟩
  · exact Nat.lt_succ_of_le (List.dropWhile_suffix p).length_le

/-- Between two runs a text can be cut. -/
theorem splitBy_append (border : ∀ c ∈ front.getLast?, ∀ d ∈ back.head?, p c ≠ p d) :
    (front ++ back).splitBy (fun c d => p c == p d) =
      front.splitBy (fun c d => p c == p d) ++ back.splitBy (fun c d => p c == p d) :=
  List.splitBy_append fun c isLast d isHead => beq_eq_false_iff_ne.mpr (border c isLast d isHead)

/-- Characters of one class are one run. -/
theorem splitBy_uniform {run : Text} (inClass : Bool) (uniform : ∀ c ∈ run, p c = inClass)
    (nonempty : run ≠ []) : run.splitBy (fun c d => p c == p d) = [run] := by
  refine List.splitBy_of_isChain nonempty (List.Pairwise.isChain ?_)
  refine List.pairwise_of_forall_mem_list fun c isIn d other => ?_
  rw [uniform c isIn, uniform d other, beq_self_eq_true]

end Runs

/-! ### White space at the ends -/

variable {blanks text rest : Text}

/-- White space in front is removed, up to a character that is none. -/
theorem trimStart_append (isBlank : ∀ c ∈ blanks, isBlank c = true)
    (border : ∀ c ∈ rest.head?, Text.isBlank c = false) : trimStart (blanks ++ rest) = rest :=
  dropWhile_append isBlank border

theorem exists_trimStart (text : Text) :
    ∃ blanks, (∀ c ∈ blanks, isBlank c = true) ∧ text = blanks ++ trimStart text :=
  ⟨text.takeWhile isBlank, fun c isIn => List.all_eq_true.mp List.all_takeWhile c isIn,
    List.takeWhile_append_dropWhile.symm⟩

/-- White space at the end is removed, down to a character that is none. -/
theorem trimEnd_append (isBlank : ∀ c ∈ blanks, isBlank c = true)
    (border : ∀ c ∈ text.getLast?, Text.isBlank c = false) : trimEnd (text ++ blanks) = text := by
  have behind : (text ++ blanks).reverse.dropWhile Text.isBlank = text.reverse := by
    rw [List.reverse_append]
    exact dropWhile_append (fun c isIn => isBlank c (List.mem_reverse.mp isIn))
      (by rwa [List.head?_reverse])
  rw [trimEnd, behind, List.reverse_reverse]

theorem exists_trimEnd (text : Text) :
    ∃ blanks, (∀ c ∈ blanks, isBlank c = true) ∧ text = trimEnd text ++ blanks := by
  refine ⟨(text.reverse.takeWhile isBlank).reverse, fun c isIn => ?_, ?_⟩
  · exact List.mem_takeWhile_imp (List.mem_reverse.mp isIn)
  · rw [trimEnd, ← List.reverse_append, List.takeWhile_append_dropWhile, List.reverse_reverse]

theorem isBlank_getLast?_trimEnd (text : Text) :
    ∀ c ∈ (trimEnd text).getLast?, isBlank c = false := by
  rw [trimEnd, List.getLast?_reverse]
  exact head?_dropWhile _

/-- White space around a text that neither starts nor ends with white space is removed. -/
theorem trim_append {lead tail : Text} (leadBlank : ∀ c ∈ lead, isBlank c = true)
    (tailBlank : ∀ c ∈ tail, isBlank c = true) (nonempty : text ≠ [])
    (start : ∀ c ∈ text.head?, isBlank c = false) (ends : ∀ c ∈ text.getLast?, isBlank c = false) :
    trim (lead ++ (text ++ tail)) = text := by
  have border : ∀ c ∈ (text ++ tail).head?, isBlank c = false := by
    rwa [List.head?_append_of_ne_nil _ nonempty]
  rw [trim, trimStart_append leadBlank border, trimEnd_append tailBlank ends]

/-- What is left of a text neither starts nor ends with white space, and only white space stood
around it. -/
theorem exists_trim (text : Text) :
    ∃ lead tail, text = lead ++ (trim text ++ tail) ∧ (∀ c ∈ lead, isBlank c = true) ∧
      (∀ c ∈ tail, isBlank c = true) ∧ (∀ c ∈ (trim text).head?, isBlank c = false) ∧
      ∀ c ∈ (trim text).getLast?, isBlank c = false := by
  obtain ⟨lead, leadBlank, split⟩ := exists_trimStart text
  obtain ⟨tail, tailBlank, splitEnd⟩ := exists_trimEnd (trimStart text)
  refine ⟨lead, tail, split.trans (congrArg (lead ++ ·) splitEnd), leadBlank, tailBlank, ?_,
    isBlank_getLast?_trimEnd _⟩
  intro c isHead
  have inStart : c ∈ (trimStart text).head? := by
    rw [splitEnd, List.head?_append_of_ne_nil]
    · exact isHead
    · rintro empty
      rw [trim, empty] at isHead
      cases isHead
  exact head?_dropWhile text c inStart

/-! ### White space added to a text -/

section Around

variable {lead tail : Text}

/-- What starts a text and has no white space in it starts the text without the white space behind
it. -/
theorem exists_of_append_eq (tailBlank : ∀ c ∈ tail, isBlank c = true) {text front rest : Text}
    (noBlank : ∀ c ∈ front, isBlank c = false) (same : text ++ tail = front ++ rest) :
    ∃ between, text = front ++ between ∧ rest = between ++ tail := by
  rcases List.append_eq_append_iff.mp same with ⟨shared, rfl, inTail⟩ | ⟨between, rfl, rfl⟩
  · have nothing : shared = [] := by
      refine List.eq_nil_iff_forall_not_mem.mpr fun c isIn => ?_
      have blank := tailBlank c (inTail ▸ List.mem_append_left _ isIn)
      rw [noBlank c (List.mem_append_right _ isIn)] at blank
      cases blank
    subst nothing
    exact ⟨[], by simp, inTail.symm⟩
  · exact ⟨between, rfl, rfl⟩

theorem append_ne_cons (tailBlank : ∀ c ∈ tail, isBlank c = true) {text : Text} {c : Char}
    (noBlank : isBlank c = false) (other : ∀ behind, text ≠ c :: behind) :
    ∀ behind, text ++ tail ≠ c :: behind := by
  intro behind same
  have start : text ++ tail = [c] ++ behind := same
  obtain ⟨between, split, -⟩ :=
    exists_of_append_eq tailBlank (List.forall_mem_singleton.mpr noBlank) start
  exact other between split

theorem trimStart_around (leadBlank : ∀ c ∈ lead, isBlank c = true) (text : Text) :
    trimStart (lead ++ text) = trimStart text :=
  List.dropWhile_append_of_pos leadBlank

/-- White space behind a text stays behind what is left of it, if anything is. -/
theorem trimStart_append_cases (tailBlank : ∀ c ∈ tail, isBlank c = true) (text : Text) :
    (trimStart text = [] ∧ trimStart (text ++ tail) = []) ∨
      trimStart text ≠ [] ∧ trimStart (text ++ tail) = trimStart text ++ tail := by
  unfold trimStart
  rw [List.dropWhile_append]
  cases text.dropWhile isBlank with
  | nil => exact Or.inl ⟨rfl, List.dropWhile_eq_nil_iff.mpr tailBlank⟩
  | cons c rest => exact Or.inr ⟨List.cons_ne_nil _ _, rfl⟩

/-- White space around a text is removed with its own. -/
theorem trim_around (leadBlank : ∀ c ∈ lead, isBlank c = true)
    (tailBlank : ∀ c ∈ tail, isBlank c = true) (text : Text) :
    trim (lead ++ (text ++ tail)) = trim text := by
  unfold trim
  rw [trimStart_around leadBlank]
  rcases trimStart_append_cases tailBlank text with ⟨empty, empty'⟩ | ⟨-, split⟩
  · rw [empty, empty']
  · rw [split, trimEnd, List.reverse_append,
      List.dropWhile_append_of_pos fun c isIn => tailBlank c (List.mem_reverse.mp isIn)]
    rfl

/-- A reader that leaves white space behind a text does so as well if it passes over white space
first, provided that it reads nothing where there is nothing. -/
theorem read_trimStart_append {α : Type} {read : Text → Option α} {extend : α → α}
    (tailBlank : ∀ c ∈ tail, isBlank c = true) (empty : read [] = none)
    (leaves : ∀ text, read (text ++ tail) = (read text).map extend) (text : Text) :
    read (trimStart (text ++ tail)) = (read (trimStart text)).map extend := by
  rcases trimStart_append_cases tailBlank text with ⟨nothing, nothing'⟩ | ⟨-, split⟩
  · rw [nothing, nothing', empty]
    rfl
  · rw [split, leaves]

end Around

end Text

end Worksheet
