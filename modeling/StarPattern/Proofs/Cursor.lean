/-
**A cursor and what it has handed out.**

A cursor holds what is left of its text apart from the column that it has come to, and nothing but
its steps ties the two together.  Every step moves both in the same way: what it hands out is taken
from the front of what is left, and the column goes on by as many characters.  So the cursor stands
between what it has handed out and what is left, through any requests, met or not.

Main definitions:

* `StarPattern.Cursor.handedOut` — the characters that the answers of a run hand out;
* `StarPattern.Cursor.after` — the cursor after some requests.

Main results:

* `StarPattern.Cursor.step_between`, `StarPattern.Cursor.run_between` — **one step, and a run**, of
  a cursor between two parts of its text;
* `StarPattern.Cursor.step_next_eq_error_iff`, `StarPattern.Cursor.step_marked_of_no_count`,
  `StarPattern.Cursor.step_marked_of_no_room`, `StarPattern.Cursor.step_marked_eq_error_iff` — when
  the cursor has no answer;
* `StarPattern.Cursor.cursor_never_drifts` — all of it about a cursor from its start on;
* `StarPattern.Cursor.far_columns_are_no_counts` — columns that are refused for the length of their
  line.
-/
import StarPattern.Cursor.Stepwise

set_option relaxedAutoImplicit false
set_option autoImplicit false

namespace StarPattern

namespace Cursor

variable {text first second : Text} {cursor : Cursor} {requests : List Request}
variable {column : Option Int} {c : Int}

/-! ### What is handed out -/

/-- The characters that an outcome hands out; a request that is not met hands out none. -/
def outcomeText : Except Fault Reply → Text
  | .ok reply => reply.handedOut
  | .error _ => []

/-- The characters that the answers of a run hand out, in order. -/
def handedOut (answers : List (Except Fault Reply × Cursor)) : Text :=
  answers.flatMap fun answer => outcomeText answer.1

@[simp] theorem handedOut_nil : handedOut [] = [] := rfl

@[simp] theorem handedOut_cons (answer : Except Fault Reply × Cursor)
    (answers : List (Except Fault Reply × Cursor)) :
    handedOut (answer :: answers) = outcomeText answer.1 ++ handedOut answers := rfl

/-- The cursor after the requests, met or not. -/
def after (cursor : Cursor) (requests : List Request) : Cursor :=
  requests.foldl (fun current request => (current.step request).2) cursor

@[simp] theorem after_nil (cursor : Cursor) : cursor.after [] = cursor := rfl

@[simp] theorem after_cons (cursor : Cursor) (request : Request) (requests : List Request) :
    cursor.after (request :: requests) = (cursor.step request).2.after requests := rfl

/-- Each answer of a run is the answer of the cursor after the requests before it. -/
theorem getElem?_run (cursor : Cursor) (requests : List Request) (i : Nat) :
    (cursor.run requests)[i]? =
      requests[i]?.map fun request => (cursor.after (requests.take i)).step request := by
  induction requests generalizing cursor i with
  | nil => rfl
  | cons request rest ih =>
      cases i with
      | zero => rfl
      | succ i => exact ih (cursor.step request).2 i

/-! ### One step, and a run -/

theorem start_eq_between (text : Text) : start text = between [] text := by
  simp [start, between]

theorem rest_between (first second : Text) :
    (between first second).rest = (second, between (first ++ second) []) := by
  have hposition : (first.length : Int) - 1 + second.length = (first ++ second).length - 1 := by
    rw [List.length_append]
    omega
  simp only [between, rest, List.append_nil, hposition]

/-- **One step**, whatever the request: what it hands out comes from the front of what is left, and
the cursor is between what it has handed out by then and the rest. -/
theorem step_between (first second : Text) (request : Request) :
    ∃ later, second = outcomeText ((between first second).step request).1 ++ later ∧
      ((between first second).step request).2 =
        between (first ++ outcomeText ((between first second).step request).1) later := by
  cases request with
  | next =>
      cases second with
      | nil =>
          refine ⟨[], ?_⟩
          simp [step, next_between_nil, outcomeText, Except.map]
      | cons c second =>
          refine ⟨second, ?_⟩
          simp [step, next_between_cons, outcomeText, Except.map, Reply.handedOut]
  | rest =>
      refine ⟨[], ?_⟩
      simp [step, rest_between, outcomeText, Reply.handedOut]
  | marked column =>
      refine ⟨second, ?_⟩
      have hnone : outcomeText (((between first second).marked column).map .marked) = [] := by
        cases (between first second).marked column <;> rfl
      simp [step, hnone]

/-- **A run** of a cursor between two parts of its text. -/
theorem run_between (first second : Text) (requests : List Request) :
    ∃ later, second = handedOut ((between first second).run requests) ++ later ∧
      (between first second).after requests =
        between (first ++ handedOut ((between first second).run requests)) later := by
  induction requests generalizing first second with
  | nil => exact ⟨second, rfl, by simp [run]⟩
  | cons request requests ih =>
      obtain ⟨later, hsecond, hstep⟩ := step_between first second request
      obtain ⟨rest, hlater, hrun⟩ :=
        ih (first ++ outcomeText ((between first second).step request).1) later
      refine ⟨rest, ?_, ?_⟩
      · rw [run, handedOut_cons, hstep, List.append_assoc, ← hlater]
        exact hsecond
      · rw [run, handedOut_cons, after_cons, hstep, hrun, List.append_assoc]

/-! ### Answers between two parts of the text -/

theorem step_next_between_nil (first : Text) :
    (between first []).step .next = (.error .exhausted, between first []) := rfl

theorem step_next_between_cons (first : Text) (c : Char) (second : Text) :
    (between first (c :: second)).step .next =
      (.ok (.character c), between (first ++ [c]) second) := by
  simp [step, next_between_cons, Except.map]

/-- No character is handed out just if none is left. -/
theorem step_next_eq_error_iff {fault : Fault} :
    ((between first second).step .next).1 = .error fault ↔ fault = .exhausted ∧ second = [] := by
  cases second with
  | nil => simp [step_next_between_nil, eq_comm]
  | cons c second => simp [step_next_between_cons]

/-- Otherwise it is the first of those that are left. -/
theorem step_next_eq_ok_iff {reply : Reply} :
    ((between first second).step .next).1 = .ok reply ↔
      ∃ c, second[0]? = some c ∧ reply = .character c := by
  cases second with
  | nil => simp [step_next_between_nil]
  | cons c second => simp [step_next_between_cons, eq_comm]

/-- A cursor that has nothing left can be asked any number of times. -/
theorem run_next_between_nil (first : Text) (k : Nat) :
    (between first []).run (List.replicate k .next) =
      List.replicate k (.error .exhausted, between first []) := by
  induction k with
  | zero => rfl
  | succ k ih => rw [List.replicate_succ, List.replicate_succ, run, step_next_between_nil, ih]

theorem step_marked (cursor : Cursor) (column : Option Int) :
    cursor.step (.marked column) = (.marked <$> cursor.marked column, cursor) := rfl

/-- A column is refused if its line would need a number of blanks that is no count. -/
theorem step_marked_of_no_count (h : column.getD cursor.position = c) (hc : ¬ IsIndex (c + 1)) :
    (cursor.step (.marked column)).1 = .error .noCount := by
  rw [step_marked, marked_of_no_count h hc]
  rfl

theorem step_marked_of_no_room (h : column.getD cursor.position = c) (hc : IsIndex (c + 1))
    (hl : longestLine < c + 1) : (cursor.step (.marked column)).1 = .error .noRoom := by
  rw [step_marked, marked_of_no_room h hc hl]
  rfl

/-- A column that a line can reach is refused if it is left of the text, and not otherwise. -/
theorem step_marked_eq_error_iff {fault : Fault} (h : column.getD cursor.position = c)
    (hc : IsIndex (c + 1)) (hl : c + 1 ≤ longestLine) :
    (cursor.step (.marked column)).1 = .error fault ↔
      c < 0 ∧ fault = .ofIndex c .caretOutside := by
  rw [step_marked, map_eq_error_iff, marked_of_line h hc hl, caretAt_eq_error_iff]

theorem step_marked_of_column {n : Nat} (h : column.getD cursor.position = n)
    (hc : IsIndex ((n : Int) + 1)) (hl : (n : Int) + 1 ≤ longestLine) :
    (cursor.step (.marked column)).1 = .ok (.marked (cursor.text.mark n)) := by
  rw [step_marked, marked_of_line h hc hl, caretAt_natCast]
  rfl

/-- The latest column of a cursor belongs to the text, so that a line can reach it if the text is no
longer than a line. -/
theorem marked_none_between (h : (first ++ second).length ≤ longestLine) :
    (between first second).marked none =
      (between first second).caretAt (between first second).position := by
  have hposition : (between first second).position + 1 = first.length := by simp [between]
  have hl : (between first second).position + 1 ≤ longestLine := by
    rw [List.length_append] at h
    omega
  exact marked_of_line rfl (isIndex_of_le_longestLine (by omega) hl) hl

/-! ### From the start on -/

/-- **A cursor never drifts from what it has handed out.**  Each answer of a run is that of the
cursor which the requests before it have left, and after any requests, met or not: the position and
one more is the number of characters that were handed out, they are the first ones of the text, and
the position lies before its end.  A next character is refused just if all have been handed out, as
often as it is asked for and without any change; otherwise it is the one that stands next in the
text.  All that is left is what the text still has, and is the same if it is taken one character
after another.

Marking a column changes nothing, whether it is the latest one or any other.  A column whose number
and one more is no count is refused for that, and one that no line can reach because there is no
room for the line; the latest column of a text that is no longer than a line is never among them.
Any other column is refused just if it is negative, and then as an index.  Else the whole text is
shown with the caret under the column, however much was handed out.  All this is the same if the
caret replaces the last of the blanks. -/
theorem cursor_never_drifts (text : Text) (requests : List Request) :
    (∀ i : Nat, ((start text).run requests)[i]? =
      requests[i]?.map fun request => ((start text).after (requests.take i)).step request) ∧
    ∃ given cursor, handedOut ((start text).run requests) = given ∧
      (start text).after requests = cursor ∧
      cursor.position + 1 = given.length ∧
      given = text.take (cursor.position + 1).toNat ∧
      cursor.position < text.length ∧
      (∀ fault, (cursor.step .next).1 = .error fault ↔ fault = .exhausted ∧ given = text) ∧
      (given = text → ∀ k, cursor.run (List.replicate k .next) =
        List.replicate k (.error .exhausted, cursor)) ∧
      (∀ reply, (cursor.step .next).1 = .ok reply ↔
        ∃ c, text[given.length]? = some c ∧ reply = .character c) ∧
      (cursor.step .rest).1 = .ok (.characters (text.drop given.length)) ∧
      cursor.drain = cursor.rest ∧
      (text.length ≤ longestLine → cursor.marked none = cursor.caretAt cursor.position) ∧
      ∀ column c, column.getD cursor.position = c →
        (cursor.step (.marked column)).2 = cursor ∧
        (¬ IsIndex (c + 1) → (cursor.step (.marked column)).1 = .error .noCount) ∧
        (IsIndex (c + 1) → longestLine < c + 1 →
          (cursor.step (.marked column)).1 = .error .noRoom) ∧
        (IsIndex (c + 1) → c + 1 ≤ longestLine →
          (∀ fault, (cursor.step (.marked column)).1 = .error fault ↔
            c < 0 ∧ fault = .ofIndex c .caretOutside) ∧
          (Fault.ofIndex c .caretOutside).className = "IndexError".toList ∧
          ∀ n : Nat, c = n →
            (cursor.step (.marked column)).1 =
              .ok (.marked (text ++ '\n' :: (List.replicate n ' ' ++ ['^'])))) ∧
        cursor.markedByReplacement column = cursor.marked column := by
  refine ⟨getElem?_run (start text) requests, ?_⟩
  obtain ⟨later, htext, hafter⟩ := run_between [] text requests
  rw [← start_eq_between, List.nil_append] at hafter
  rw [← start_eq_between] at htext
  generalize handedOut ((start text).run requests) = given at htext hafter
  subst htext
  have hposition : (between given later).position + 1 = given.length := by
    simp [between]
  refine ⟨given, between given later, rfl, hafter, hposition, ?_, ?_, ?_, ?_, ?_, ?_,
    drain_eq_rest _, marked_none_between, fun column c hcolumn =>
      ⟨rfl, step_marked_of_no_count hcolumn, step_marked_of_no_room hcolumn, fun hc hl =>
        ⟨fun fault => step_marked_eq_error_iff hcolumn hc hl, Fault.className_ofIndex rfl c, ?_⟩,
        markedByReplacement_eq _ column⟩⟩
  · rw [hposition, Int.toNat_natCast, List.take_left]
  · rw [List.length_append]
    omega
  · simp [step_next_eq_error_iff]
  · intro hall k
    obtain rfl : later = [] := by simpa using hall
    exact run_next_between_nil given k
  · intro reply
    rw [step_next_eq_ok_iff, List.getElem?_append_right (Nat.le_refl _), Nat.sub_self]
  · rw [List.drop_left]
    rfl
  · rintro n rfl
    exact step_marked_of_column hcolumn hc hl

/-- Two characters, a caret under the second one, the remaining character, two requests in vain and
a caret under a column far to the right. -/
theorem caret_after_requests_in_vain :
    ∃ cursor, (start ['a', 'b', 'c']).after
        [.next, .next, .marked none, .rest, .next, .marked (some (-1)), .next] = cursor ∧
      cursor.position = 2 ∧
      cursor.run [.next, .next] = [(.error .exhausted, cursor), (.error .exhausted, cursor)] ∧
      (cursor.step (.marked (some 5))).1 = .ok (.marked "abc\n     ^".toList) ∧
      (cursor.step (.marked (some (-1)))).1 = .error .caretOutside := by
  obtain ⟨-, given, cursor, hgiven, hcursor, hposition, -, -, -, hnext, -, -, -, -, hmarked⟩ :=
    cursor_never_drifts ['a', 'b', 'c']
      [.next, .next, .marked none, .rest, .next, .marked (some (-1)), .next]
  obtain rfl : ['a', 'b', 'c'] = given := hgiven
  obtain ⟨-, -, -, hright, -⟩ := hmarked (some 5) 5 rfl
  obtain ⟨-, -, hcaret⟩ := hright (by decide) (by decide)
  obtain ⟨-, -, -, hleft, -⟩ := hmarked (some (-1)) (-1) rfl
  obtain ⟨hrefused, -, -⟩ := hleft (by decide) (by decide)
  refine ⟨cursor, hcursor, ?_, hnext rfl 2, hcaret 5 rfl, (hrefused _).2 ⟨by decide, rfl⟩⟩
  have hlength : cursor.position + 1 = 3 := hposition
  omega

/-- **Far columns are refused otherwise.**  It is not so that a negative column is always refused as
an index, nor that there is a caret under every other: where the line of the caret would need a
number of blanks that is no count, on either side, the number is refused first. -/
theorem far_columns_are_no_counts :
    (¬ ∀ (text : Text) (requests : List Request) (c : Int),
      (∃ fault, (((start text).after requests).step (.marked (some c))).1 = .error fault ∧
        fault.className = "IndexError".toList) ↔ c < 0) ∧
    ¬ ∀ (text : Text) (requests : List Request) (n : Nat),
      (((start text).after requests).step (.marked (some n))).1 =
        .ok (.marked (text ++ '\n' :: (List.replicate n ' ' ++ ['^']))) := by
  constructor
  · intro h
    have hleft : ((start []).step (.marked (some (-9223372036854775810)))).1 = .error .noCount :=
      step_marked_of_no_count rfl (by decide)
    obtain ⟨fault, hfault, hclass⟩ := (h [] [] (-9223372036854775810)).2 (by decide)
    obtain rfl : Fault.noCount = fault := Except.error.inj (hleft.symm.trans hfault)
    exact absurd hclass (by decide)
  · intro h
    have hright : ((start []).step (.marked (some (9223372036854775807 : Nat)))).1 =
        .error .noCount := step_marked_of_no_count rfl (by decide)
    cases hright.symm.trans (h [] [] 9223372036854775807)

end Cursor

end StarPattern
