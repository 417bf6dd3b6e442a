/-
**Cursors step by step.**

What is left of a text can be handed out one character at a time, until there is none.  A caret can
be put under a column by taking a line of blanks up to that column and replacing its last character.
Characters of a line may be counted from either end, but there is nothing to count in the line that
belongs to a negative column.  Both the number of blanks and the column have to be such that a line
can have that many, and an index can be as large.

Main definitions:

* `StarPattern.Cursor.drain` — all that is left, one character after another;
* `StarPattern.Text.blanks` — a line of blanks;
* `StarPattern.Text.replaceAt` — a text with one character replaced, counted from either end;
* `StarPattern.Cursor.caretLine`, `StarPattern.Cursor.markedByReplacement` — the caret on a line of
  blanks, and the text with that line below it.

Main results:

* `StarPattern.Cursor.drain_eq_rest`, `StarPattern.Cursor.markedByReplacement_eq` — these are the
  requests of `StarPattern/Cursor.lean`.
-/
import StarPattern.Cursor

set_option relaxedAutoImplicit false
set_option autoImplicit false

namespace StarPattern

/-- A line with as many blanks as an integer says, none if it is negative. -/
def Text.blanks (count : Int) : Except Fault Text :=
  if ¬ IsIndex count then .error .noCount
  else if Cursor.longestLine < count then .error .noRoom
  else .ok (List.replicate count.toNat ' ')

section Blanks

variable {count : Int}

theorem Text.blanks_of_line (hc : IsIndex count) (hl : count ≤ Cursor.longestLine) :
    Text.blanks count = .ok (List.replicate count.toNat ' ') := by
  rw [blanks, if_neg (not_not_intro hc), if_neg (Int.not_lt.2 hl)]

theorem Text.blanks_of_no_room (hc : IsIndex count) (hl : Cursor.longestLine < count) :
    Text.blanks count = .error .noRoom := by
  rw [blanks, if_neg (not_not_intro hc), if_pos hl]

theorem Text.blanks_of_no_count (hc : ¬ IsIndex count) : Text.blanks count = .error .noCount :=
  if_pos hc

end Blanks

/-- The text with another character at an index, which counts from the front or, if it is negative,
from the back. -/
def Text.replaceAt (text : Text) (index : Int) (c : Char) : Except Fault Text :=
  if ¬ IsIndex index then .error .noIndex
  else
    let offset := if index < 0 then index + text.length else index
    if 0 ≤ offset ∧ offset < text.length then .ok (text.set offset.toNat c)
    else .error .caretOutside

/-- In an empty line counting from the back does not help. -/
theorem Text.replaceAt_nil_of_neg {index : Int} (h : index < 0) (c : Char) :
    Text.replaceAt [] index c = .error (.ofIndex index .caretOutside) := by
  have houtside : ¬ (0 ≤ index + ((0 : Nat) : Int) ∧ index + ((0 : Nat) : Int) < (0 : Nat)) := by
    omega
  by_cases hi : IsIndex index
  · simp only [replaceAt, Fault.ofIndex, hi, not_true_eq_false, if_false, if_true, h,
      List.length_nil, houtside]
  · simp only [replaceAt, Fault.ofIndex, hi, not_false_eq_true, if_true, if_false]

/-- The last of some blanks is replaced at the number of those before it. -/
theorem Text.replaceAt_replicate {n : Nat} (h : IsIndex n) (c : Char) :
    Text.replaceAt (List.replicate (n + 1) ' ') n c = .ok (List.replicate n ' ' ++ [c]) := by
  have hneg : ¬ (n : Int) < 0 := by omega
  have hinside : 0 ≤ (n : Int) ∧ (n : Int) < ((n + 1 : Nat) : Int) := by omega
  have hlast : (List.replicate (n + 1) ' ').set n c = List.replicate n ' ' ++ [c] := by
    rw [List.replicate_succ', List.set_append_right _ _ (by simp)]
    simp
  rw [replaceAt, if_neg (not_not_intro h)]
  simp only [if_neg hneg, List.length_replicate, Int.toNat_natCast, hlast]
  exact if_pos hinside

namespace Cursor

/-! ### All that is left -/

/-- Hands out one character after another until there is none. -/
def drain (cursor : Cursor) : Text × Cursor :=
  match h : cursor.next with
  | (.error _, later) => ([], later)
  | (.ok c, later) =>
    have : later.remaining.length < cursor.remaining.length := length_remaining_of_next h
    let drained := later.drain
    (c :: drained.1, drained.2)
termination_by cursor.remaining.length

theorem drain_of_exhausted {cursor later : Cursor} {fault : Fault}
    (h : cursor.next = (.error fault, later)) : cursor.drain = ([], later) := by
  rw [drain]
  split
  next hnext =>
    cases h.symm.trans hnext
    rfl
  next hnext => cases h.symm.trans hnext

theorem drain_of_next {cursor later : Cursor} {c : Char} (h : cursor.next = (.ok c, later)) :
    cursor.drain = (c :: later.drain.1, later.drain.2) := by
  rw [drain]
  split
  next hnext => cases h.symm.trans hnext
  next hnext =>
    cases h.symm.trans hnext
    rfl

/-- **One character after another** is all that is left at once. -/
theorem drain_eq_rest (cursor : Cursor) : cursor.drain = cursor.rest := by
  rcases cursor with ⟨text, remaining, position⟩
  induction remaining generalizing position with
  | nil =>
      rw [drain_of_exhausted rfl]
      simp [rest]
  | cons c remaining ih =>
      have hlast : position + 1 + remaining.length = position + (c :: remaining).length := by
        rw [List.length_cons]
        omega
      rw [drain_of_next rfl, ih (position + 1)]
      simp only [rest, hlast]

/-! ### The caret -/

/-- A caret at the end of a line of blanks. -/
def caretLine (column : Int) : Except Fault Text :=
  match Text.blanks (column + 1) with
  | .error fault => .error fault
  | .ok line => Text.replaceAt line column '^'

/-- The whole text with a caret on a line of its own. -/
def markedByReplacement (cursor : Cursor) (column : Option Int) : Except Fault Text :=
  (fun line => cursor.text ++ '\n' :: line) <$> caretLine (column.getD cursor.position)

/-- There are no blanks up to a negative column. -/
theorem caretLine_of_neg {column : Int} (hc : IsIndex (column + 1)) (h : column < 0) :
    caretLine column = .error (.ofIndex column .caretOutside) := by
  have hroom : column + 1 ≤ longestLine := by
    rw [longestLine]
    omega
  have hblanks : (column + 1).toNat = 0 := by omega
  simp only [caretLine, Text.blanks_of_line hc hroom, hblanks, List.replicate_zero,
    Text.replaceAt_nil_of_neg h]

theorem caretLine_natCast {n : Nat} (h : (n : Int) + 1 ≤ longestLine) :
    caretLine n = .ok (List.replicate n ' ' ++ ['^']) := by
  have hcount : IsIndex ((n : Int) + 1) := isIndex_of_le_longestLine (by omega) h
  have hcolumn : IsIndex n := isIndex_of_le_longestLine (by omega) (by omega)
  have hblanks : ((n : Int) + 1).toNat = n + 1 := by omega
  rw [caretLine, Text.blanks_of_line hcount h, hblanks]
  exact Text.replaceAt_replicate hcolumn '^'

/-- **Replacing the last of the blanks** puts the caret under the column. -/
theorem markedByReplacement_eq (cursor : Cursor) (column : Option Int) :
    cursor.markedByReplacement column = cursor.marked column := by
  rw [markedByReplacement]
  generalize hcolumn : column.getD cursor.position = c
  by_cases hc : IsIndex (c + 1)
  · by_cases hl : c + 1 ≤ longestLine
    · rw [marked_of_line hcolumn hc hl]
      by_cases hneg : c < 0
      · rw [caretLine_of_neg hc hneg, caretAt, if_pos hneg]
        rfl
      · obtain ⟨n, rfl⟩ : ∃ n : Nat, c = n := ⟨c.toNat, by omega⟩
        rw [caretLine_natCast hl, caretAt_natCast]
        rfl
    · have hlong : longestLine < c + 1 := Int.not_le.1 hl
      rw [marked_of_no_room hcolumn hc hlong, caretLine, Text.blanks_of_no_room hc hlong]
      rfl
  · rw [marked_of_no_count hcolumn hc, caretLine, Text.blanks_of_no_count hc]
    rfl

end Cursor

end StarPattern
