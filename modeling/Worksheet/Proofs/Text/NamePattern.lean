/-
**The pattern of names.**

A name stands at the border of a word, starts with a letter or an underscore, and goes on with all
word parts that follow. Its places in a text are searched for from left to right, and the search
goes on behind each place found. This module says what the search does with each part of a text.

* `Text.nameAt?` is the pattern at one place, and `Text.namePlaces` are the places where it matches;
* `namePlacesFrom_name`: a name that nothing continues is found where it stands;
* `namePlacesFrom_outside`, `namePlacesFrom_inside` and `namePlacesFrom_of_not_isName`: nothing else
  is found.
-/

import Worksheet.Proofs.Text.WhiteSpace

namespace Worksheet

namespace Text

/-! ### The pattern -/

/-- Of the characters on the two sides of a place exactly one belongs to a word. -/
def isBorder (before behind : Option Char) : Bool :=
  before.any isWordPart != behind.any isWordPart

/-- The name at the start of a text that stands behind a character: at a border, a character that
starts a word, and all word parts behind it. -/
def nameAt? (before : Option Char) (text : Text) : Option Text :=
  match text with
  | [] => none
  | c :: rest =>
    if isBorder before (some c) && isWordStart c then some (c :: rest.takeWhile isWordPart)
    else none

/-- The places of names in a text behind the characters `passed`, which are in reverse; the first
`skipped` characters of the text belong to a name found already. -/
def namePlacesFrom (skipped : Nat) (passed : Text) : Text → List (Nat × Text)
  | [] => []
  | c :: rest =>
    match skipped with
    | skipped + 1 => namePlacesFrom skipped (c :: passed) rest
    | 0 =>
      match nameAt? passed.head? (c :: rest) with
      | some name =>
        (passed.length, name) :: namePlacesFrom (name.length - 1) (c :: passed) rest
      | none => namePlacesFrom 0 (c :: passed) rest

/-- The places where the pattern of names matches, from left to right, with the names. -/
def namePlaces (text : Text) : List (Nat × Text) :=
  namePlacesFrom 0 [] text

/-! ### The search, word by word -/

/-- What belongs to no word starts none. -/
theorem isWordStart_eq_false {c : Char} (noPart : isWordPart c = false) :
    isWordStart c = false := by
  rw [← Bool.not_eq_true] at noPart ⊢
  exact fun start => noPart (isWordPart_of_isWordStart c start)

variable {passed word rest : Text}

/-- Characters of a name found already are passed over. -/
theorem namePlacesFrom_skipped (passed word rest : Text) :
    namePlacesFrom word.length passed (word ++ rest) =
      namePlacesFrom 0 (word.reverse ++ passed) rest := by
  induction word generalizing passed with
  | nil => rfl
  | cons c others ih =>
    rw [List.length_cons, List.cons_append, namePlacesFrom, ih, List.reverse_cons,
      List.append_assoc, List.singleton_append]

/-- A character at which the pattern does not match is passed over. -/
theorem namePlacesFrom_cons {c : Char} (none : nameAt? passed.head? (c :: rest) = none) :
    namePlacesFrom 0 passed (c :: rest) = namePlacesFrom 0 (c :: passed) rest := by
  rw [namePlacesFrom, none]

/-- A name starts with a letter or an underscore. -/
theorem nameAt?_of_noStart (before : Option Char) {c : Char} (noStart : isWordStart c = false) :
    nameAt? before (c :: rest) = none := by
  rw [nameAt?, noStart, Bool.and_false]
  rfl

/-- A name does not start within a word. -/
theorem nameAt?_inside {b c : Char} (part : isWordPart b = true) (partToo : isWordPart c = true) :
    nameAt? (some b) (c :: rest) = none := by
  have noBorder : isBorder (some b) (some c) = false := by simp [isBorder, part, partToo]
  rw [nameAt?, noBorder, Bool.false_and]
  rfl

/-- Where no character starts a word there are no names. -/
theorem namePlacesFrom_outside (noStart : ∀ c ∈ word, isWordStart c = false) :
    namePlacesFrom 0 passed (word ++ rest) = namePlacesFrom 0 (word.reverse ++ passed) rest := by
  induction word generalizing passed with
  | nil => rfl
  | cons c others ih =>
    rw [List.forall_mem_cons] at noStart
    rw [List.cons_append, namePlacesFrom_cons (nameAt?_of_noStart _ noStart.1), ih noStart.2,
      List.reverse_cons, List.append_assoc, List.singleton_append]

/-- Within a word no name starts. -/
theorem namePlacesFrom_inside {b : Char} (part : isWordPart b = true)
    (parts : ∀ c ∈ word, isWordPart c = true) :
    namePlacesFrom 0 (b :: passed) (word ++ rest) =
      namePlacesFrom 0 (word.reverse ++ b :: passed) rest := by
  induction word generalizing b passed with
  | nil => rfl
  | cons c others ih =>
    rw [List.forall_mem_cons] at parts
    have inside : nameAt? (b :: passed).head? (c :: (others ++ rest)) = none :=
      nameAt?_inside part parts.1
    rw [List.cons_append, namePlacesFrom_cons inside, ih parts.1 parts.2, List.reverse_cons,
      List.append_assoc, List.singleton_append]

/-- A name that nothing continues is found where it stands. -/
theorem namePlacesFrom_name (isName : isName word = true)
    (before : ∀ b ∈ passed.head?, isWordPart b = false)
    (behind : ∀ c ∈ rest.head?, isWordPart c = false) :
    namePlacesFrom 0 passed (word ++ rest) =
      (passed.length, word) :: namePlacesFrom 0 (word.reverse ++ passed) rest := by
  cases word with
  | nil => cases isName
  | cons c others =>
    rw [Text.isName, Bool.and_eq_true, List.all_eq_true] at isName
    have border : isBorder passed.head? (some c) = true := by
      have outside : passed.head?.any isWordPart = false := by
        rw [Option.any_eq_false]
        exact fun b isHead => by simp [before b isHead]
      rw [isBorder, outside, Option.any_some, isWordPart_of_isWordStart c isName.1]
      rfl
    have found : nameAt? passed.head? (c :: (others ++ rest)) = some (c :: others) := by
      rw [nameAt?, border, isName.1, takeWhile_append isName.2 behind]
      rfl
    rw [List.cons_append, namePlacesFrom, found]
    dsimp only
    rw [List.length_cons, Nat.add_sub_cancel, namePlacesFrom_skipped, List.reverse_cons,
      List.append_assoc, List.singleton_append]

/-- A word that starts with a digit holds no name. -/
theorem namePlacesFrom_of_not_isName (parts : ∀ c ∈ word, isWordPart c = true)
    (noName : isName word = false) :
    namePlacesFrom 0 passed (word ++ rest) = namePlacesFrom 0 (word.reverse ++ passed) rest := by
  cases word with
  | nil => rfl
  | cons c others =>
    rw [List.forall_mem_cons] at parts
    have noStart : isWordStart c = false := by
      rwa [isName, List.all_eq_true.mpr parts.2, Bool.and_true] at noName
    rw [List.cons_append, namePlacesFrom_cons (nameAt?_of_noStart _ noStart),
      namePlacesFrom_inside parts.1 parts.2, List.reverse_cons, List.append_assoc,
      List.singleton_append]

end Text

end Worksheet
