/-
**Texts and the classes of their characters.**

A text is the list of its characters, so that what the library says about texts is said by
recursion on lists. This module holds the character classes that every reader of the library
shares (white space as Unicode has it, letters and digits as ASCII has them) and the operations
that remove white space at the ends of a text.

* `isBlank`, `isWordStart`, `isWordPart` and `isName` say what white space and words are;
* `trimStart`, `trimEnd` and `trim` remove white space at the ends;
* `zeroPadded` writes a number of fixed width.
-/

namespace Worksheet

/-- A text is the list of its characters. -/
abbrev Text := List Char

namespace Text

/-! ### Classes of characters -/

/-- White space is every character with Unicode's `White_Space` property. -/
def isBlank (c : Char) : Bool :=
  let n := c.toNat
  (0x9 ≤ n && n ≤ 0xD) || n == 0x20 || n == 0x85 || n == 0xA0 || n == 0x1680 ||
    (0x2000 ≤ n && n ≤ 0x200A) || n == 0x2028 || n == 0x2029 || n == 0x202F || n == 0x205F ||
    n == 0x3000

/-- A word starts with an ASCII letter or an underscore. -/
def isWordStart (c : Char) : Bool :=
  c.isAlpha || c == '_'

/-- A word consists of ASCII letters, ASCII digits and underscores. -/
def isWordPart (c : Char) : Bool :=
  c.isAlphanum || c == '_'

/-- A name is a word: a letter or an underscore, then letters, digits and underscores. -/
def isName (text : Text) : Bool :=
  match text with
  | [] => false
  | c :: rest => isWordStart c && rest.all isWordPart

/-! ### White space at the ends -/

/-- The text without the white space in front. -/
def trimStart (text : Text) : Text :=
  text.dropWhile isBlank

/-- The text without the white space at its end. -/
def trimEnd (text : Text) : Text :=
  (text.reverse.dropWhile isBlank).reverse

/-- The text without the white space at either end. -/
def trim (text : Text) : Text :=
  trimEnd (trimStart text)

/-! ### Digits -/

/-- The decimal digits of a number, with zeros in front up to the given width. -/
def zeroPadded (width n : Nat) : Text :=
  let digits := Nat.toDigits 10 n
  List.replicate (width - digits.length) '0' ++ digits

/-! ### Small laws -/

/-- The characters of words are not white space. -/
theorem isBlank_eq_false_of_isWordPart (c : Char) (part : isWordPart c = true) :
    isBlank c = false := by
  have range : 48 ≤ c.toNat ∧ c.toNat ≤ 122 := by
    unfold isWordPart Char.isAlphanum Char.isAlpha Char.isUpper Char.isLower Char.isDigit at part
    simp only [Bool.or_eq_true, Bool.and_eq_true, decide_eq_true_eq, beq_iff_eq, ge_iff_le,
      UInt32.le_iff_toNat_le] at part
    rcases part with ((part | part) | part) | rfl
    · exact ⟨Nat.le_trans (by decide) part.1, Nat.le_trans part.2 (by decide)⟩
    · exact ⟨Nat.le_trans (by decide) part.1, part.2⟩
    · exact ⟨part.1, Nat.le_trans part.2 (by decide)⟩
    · decide
  simp only [isBlank, Bool.or_eq_false_iff, Bool.and_eq_false_iff, decide_eq_false_iff_not,
    beq_eq_false_iff_ne]
  omega

/-- Digits may continue a word. -/
theorem isWordPart_of_isDigit (c : Char) (digit : c.isDigit = true) : isWordPart c = true := by
  rw [isWordPart, Char.isAlphanum, digit, Bool.or_true, Bool.true_or]

/-- A character that may start a word may continue one. -/
theorem isWordPart_of_isWordStart (c : Char) (start : isWordStart c = true) :
    isWordPart c = true := by
  simp only [isWordStart, isWordPart, Char.isAlphanum, Bool.or_eq_true] at start ⊢
  exact start.imp_left Or.inl

end Text

end Worksheet
