/-
**Cursors.**

A cursor hands out the characters of a text one after another and knows the column of the character
that it handed out last.  It can show the whole text with a caret under that column or under any
other column from the first on, as far as a line can reach; asking for this changes nothing.

Main definitions:

* `StarPattern.Cursor` — a text, what of it is left, and the latest column;
* `StarPattern.Cursor.longestLine` — how long a line can be;
* `StarPattern.Cursor.next`, `StarPattern.Cursor.rest`, `StarPattern.Cursor.marked` — the
  requests;
* `StarPattern.Cursor.caretAt` — a caret, however long its line is;
* `StarPattern.Cursor.between` — the cursor between two parts of its text;
* `StarPattern.Cursor.step`, `StarPattern.Cursor.run` — one request, and requests in a row.
-/
import StarPattern.Fault

set_option relaxedAutoImplicit false
set_option autoImplicit false

namespace StarPattern

/-- A text that is being handed out.  The position is the column of the character handed out last,
and one less than the first column before that. -/
structure Cursor where
  text : Text
  remaining : Text
  position : Int
  deriving DecidableEq, Repr

namespace Cursor

/-- A cursor that has handed out nothing. -/
def start (text : Text) : Cursor := ⟨text, text, -1⟩

/-- Hands out the next character. -/
def next (cursor : Cursor) : Except Fault Char × Cursor :=
  match cursor.remaining with
  | [] => (.error .exhausted, cursor)
  | c :: remaining => (.ok c, { cursor with remaining, position := cursor.position + 1 })

theorem length_remaining_of_next {cursor later : Cursor} {c : Char}
    (h : cursor.next = (.ok c, later)) : later.remaining.length < cursor.remaining.length := by
  unfold next at h
  split at h
  next hr => simp at h
  next d remaining hr =>
    obtain ⟨-, rfl⟩ := Prod.mk.inj h
    simp [hr]

/-- Hands out all that is left. -/
def rest (cursor : Cursor) : Text × Cursor :=
  (cursor.remaining,
    { cursor with remaining := [], position := cursor.position + cursor.remaining.length })

/-- The number of cells that a line can have.  Each takes eight bytes, and the bytes are counted by
an index.  How many of them a machine has is not asked. -/
def longestLine : Int := 1152921504606846975

/-- What a line can have is counted by an index. -/
theorem isIndex_of_le_longestLine {n : Int} (hn : 0 ≤ n) (hl : n ≤ longestLine) : IsIndex n := by
  rw [longestLine] at hl
  exact ⟨by omega, by omega⟩

/-- The whole text with a caret under a column. -/
def caretAt (cursor : Cursor) (column : Int) : Except Fault Text :=
  if column < 0 then .error (.ofIndex column .caretOutside)
  else .ok (cursor.text.mark column.toNat)

/-- The whole text with a caret under the given column, or under the latest one.  The line of the
caret has one cell more than the number of the column, so that number and one more has to be a
count, also where the column is left of the text. -/
def marked (cursor : Cursor) (column : Option Int) : Except Fault Text :=
  let column := column.getD cursor.position
  if IsIndex (column + 1) then
    if column + 1 ≤ longestLine then cursor.caretAt column else .error .noRoom
  else .error .noCount

section Marks

variable {cursor : Cursor} {column : Option Int} {c : Int}

theorem caretAt_natCast (cursor : Cursor) (n : Nat) :
    cursor.caretAt n = .ok (cursor.text.mark n) :=
  if_neg (Int.not_lt.2 (Int.natCast_nonneg n))

/-- A caret is refused left of the text, and nowhere else. -/
theorem caretAt_eq_error_iff {fault : Fault} :
    cursor.caretAt c = .error fault ↔ c < 0 ∧ fault = .ofIndex c .caretOutside := by
  by_cases h : c < 0
  · simp [caretAt, h, eq_comm]
  · simp [caretAt, h]

theorem marked_of_line (h : column.getD cursor.position = c) (hc : IsIndex (c + 1))
    (hl : c + 1 ≤ longestLine) : cursor.marked column = cursor.caretAt c := by
  simp only [marked, h, if_pos hc, if_pos hl]

theorem marked_of_no_room (h : column.getD cursor.position = c) (hc : IsIndex (c + 1))
    (hl : longestLine < c + 1) : cursor.marked column = .error .noRoom := by
  simp only [marked, h, if_pos hc, if_neg (Int.not_le.2 hl)]

theorem marked_of_no_count (h : column.getD cursor.position = c) (hc : ¬ IsIndex (c + 1)) :
    cursor.marked column = .error .noCount := by
  simp only [marked, h, if_neg hc]

end Marks

/-! ### Between two parts of the text -/

/-- The cursor that has handed out the first part of a text and not yet the second. -/
def between (first second : Text) : Cursor := ⟨first ++ second, second, first.length - 1⟩

theorem next_between_nil (first : Text) :
    (between first []).next = (.error .exhausted, between first []) := rfl

theorem next_between_cons (first : Text) (c : Char) (second : Text) :
    (between first (c :: second)).next = (.ok c, between (first ++ [c]) second) := by
  simp [between, next]

theorem caretAt_between_concat (first : Text) (c : Char) (second : Text) :
    (between (first ++ [c]) second).caretAt (between (first ++ [c]) second).position =
      .ok ((first ++ c :: second).mark first.length) := by
  simp [between, caretAt]

/-! ### Requests in a row -/

/-- A request to a cursor. -/
inductive Request
  | next
  | rest
  | marked (column : Option Int)
  deriving DecidableEq, Repr

/-- The answer to a request that was met. -/
inductive Reply
  | character (c : Char)
  | characters (text : Text)
  | marked (text : Text)
  deriving DecidableEq, Repr

/-- The characters that a reply hands out. -/
def Reply.handedOut : Reply → Text
  | character c => [c]
  | characters text => text
  | marked _ => []

/-- Meets a request; one that cannot be met leaves the cursor as it was. -/
def step (cursor : Cursor) : Request → Except Fault Reply × Cursor
  | .next => (cursor.next.1.map .character, cursor.next.2)
  | .rest => (.ok (.characters cursor.rest.1), cursor.rest.2)
  | .marked column => ((cursor.marked column).map .marked, cursor)

/-- Meets the requests in order; each answer stands with the cursor after it. -/
def run (cursor : Cursor) : List Request → List (Except Fault Reply × Cursor)
  | [] => []
  | request :: requests =>
    let answer := cursor.step request
    answer :: answer.2.run requests

end Cursor

end StarPattern
