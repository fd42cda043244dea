/-
**The lines of a text.**

Lines are separated by the line feed alone, so a carriage return stays with its line and a text
has one line more than it has line feeds.

* `lines` cuts a text at its line feeds;
* `unlines` puts lines together again;
* `unlines_lines`: nothing is lost;
* `feed_notMem_of_mem_lines`: no line has a line feed in it;
* `lines_unlines`: lines without a line feed in them are found again.
-/

import Worksheet.Text.Basic

namespace Worksheet

namespace Text

/-- Puts a character in front of the first line. -/
def consFirst (c : Char) : List Text → List Text
  | [] => [[c]]
  | first :: others => (c :: first) :: others

/-- The pieces of the text between its line feeds. -/
def lines (text : Text) : List Text :=
  text.foldr (fun c found => if c == '\n' then [] :: found else consFirst c found) [[]]

/-- The lines with a line feed between each two. -/
def unlines (pieces : List Text) : Text :=
  List.intercalate ['\n'] pieces

/-! ### Small laws -/

theorem lines_nil : lines [] = [[]] := rfl

theorem lines_cons (c : Char) (text : Text) :
    lines (c :: text) = if c == '\n' then [] :: lines text else consFirst c (lines text) := rfl

/-- Every text has a line. -/
theorem lines_ne_nil (text : Text) : lines text ≠ [] := by
  cases text with
  | nil => simp [lines_nil]
  | cons c rest =>
    rw [lines_cons]
    split
    · simp
    · cases lines rest <;> simp [consFirst]

theorem unlines_cons_cons (first second : Text) (others : List Text) :
    unlines (first :: second :: others) = first ++ '\n' :: unlines (second :: others) := by
  simp [unlines, List.intercalate, List.intersperse]

theorem unlines_consFirst (c : Char) (pieces : List Text) :
    unlines (consFirst c pieces) = c :: unlines pieces := by
  match pieces with
  | [] => simp [consFirst, unlines, List.intercalate]
  | [only] => simp [consFirst, unlines, List.intercalate]
  | first :: second :: others => simp [consFirst, unlines_cons_cons]

/-- Putting the lines of a text together gives the text back. -/
theorem unlines_lines (text : Text) : unlines (lines text) = text := by
  induction text with
  | nil => rfl
  | cons c rest ih =>
    rw [lines_cons]
    split
    next feed =>
      have found : ∃ first others, lines rest = first :: others := by
        cases shape : lines rest with
        | nil => exact absurd shape (lines_ne_nil rest)
        | cons first others => exact ⟨first, others, rfl⟩
      obtain ⟨first, others, shape⟩ := found
      rw [shape] at ih
      rw [shape, unlines_cons_cons, ih, eq_of_beq feed]
      rfl
    next => rw [unlines_consFirst, ih]

/-- No line has a line feed in it. -/
theorem feed_notMem_of_mem_lines {text line : Text} (isLine : line ∈ lines text) : '\n' ∉ line := by
  induction text generalizing line with
  | nil =>
    obtain rfl := List.mem_singleton.mp isLine
    exact List.not_mem_nil
  | cons c rest ih =>
    rw [lines_cons] at isLine
    split at isLine
    next =>
      rcases List.mem_cons.mp isLine with rfl | later
      · exact List.not_mem_nil
      · exact ih later
    next noFeed =>
      have different : c ≠ '\n' := fun same => noFeed (beq_iff_eq.mpr same)
      cases shape : lines rest with
      | nil => exact absurd shape (lines_ne_nil rest)
      | cons first others =>
        rw [shape, consFirst] at isLine
        rcases List.mem_cons.mp isLine with rfl | later
        · refine List.not_mem_cons_of_ne_of_not_mem different.symm (ih ?_)
          rw [shape]
          exact List.mem_cons_self
        · refine ih ?_
          rw [shape]
          exact List.mem_cons_of_mem _ later

/-- A text without line feeds is one line. -/
theorem lines_of_notMem {text : Text} (noFeed : '\n' ∉ text) : lines text = [text] := by
  induction text with
  | nil => rfl
  | cons c rest ih =>
    rw [List.mem_cons, not_or] at noFeed
    rw [lines_cons, ih noFeed.2, if_neg (by simpa using Ne.symm noFeed.1)]
    rfl

/-- The first line ends at the first line feed. -/
theorem lines_append_feed {front : Text} (noFeed : '\n' ∉ front) (back : Text) :
    lines (front ++ '\n' :: back) = front :: lines back := by
  induction front with
  | nil => rfl
  | cons c rest ih =>
    rw [List.mem_cons, not_or] at noFeed
    rw [List.cons_append, lines_cons, ih noFeed.2, if_neg (by simpa using Ne.symm noFeed.1)]
    rfl

/-- Lines without line feeds, put together, are found again. -/
theorem lines_unlines {pieces : List Text} (nonempty : pieces ≠ [])
    (noFeed : ∀ piece ∈ pieces, '\n' ∉ piece) : lines (unlines pieces) = pieces := by
  match pieces with
  | [only] =>
    have alone : unlines [only] = only := by simp [unlines, List.intercalate]
    rw [alone, lines_of_notMem (noFeed only List.mem_cons_self)]
  | first :: second :: others =>
    rw [List.forall_mem_cons] at noFeed
    rw [unlines_cons_cons, lines_append_feed noFeed.1,
      lines_unlines (List.cons_ne_nil _ _) noFeed.2]

/-- With a line feed behind the last line, every line has one behind it. -/
theorem unlines_append_feed {pieces : List Text} (nonempty : pieces ≠ []) :
    unlines pieces ++ ['\n'] = pieces.flatMap (· ++ ['\n']) := by
  match pieces with
  | [only] => simp [unlines, List.intercalate]
  | first :: second :: others =>
    rw [unlines_cons_cons, List.append_assoc, List.cons_append,
      unlines_append_feed (List.cons_ne_nil _ _)]
    simp

end Text

end Worksheet
