/-
**Reading a pattern text step by step.**

The reader of `StarPattern/Language/Reading.lean` looks one character ahead and makes each atom
once.  A text can also be read without looking ahead: a cursor hands out one character after
another, each becomes an atom of its own, and a marker goes to the atom that was made last, which is
taken back and made repeatable.  Whether it can take the marker is decided by that atom, and the
column to be marked is the one where the cursor stands.

Main definitions:

* `StarPattern.Cursor.refusal` — the refusal of the text at the latest column;
* `StarPattern.Language.repeatLatest`, `StarPattern.Language.takeIn` — what a marker, and what any
  character does to the atoms so far;
* `StarPattern.Language.readAlong` — the pattern that is read along a cursor.
-/
import StarPattern.Cursor
import StarPattern.Language.Reading

set_option relaxedAutoImplicit false
set_option autoImplicit false

namespace StarPattern

/-- The refusal of the text for the given reason, with the latest column marked.  That column is one
of the text, so that its line is no longer than the text itself. -/
def Cursor.refusal (cursor : Cursor) (reason : Text) : Fault :=
  match cursor.caretAt cursor.position with
  | .ok marked => .rejected ⟨reason, some marked⟩
  | .error fault => fault

namespace Language

/-- Makes the latest atom repeatable.  There has to be one, and it takes at most one marker. -/
def repeatLatest (language : Language) (cursor : Cursor) (atoms : List Atom) :
    Except Fault (List Atom) :=
  match atoms.getLast? with
  | none =>
    .error (cursor.refusal
      (language.zeroOrMore :: " is not preceded by a repeatable expression".toList))
  | some latest =>
    if latest.repeatable then
      .error (cursor.refusal
        (language.zeroOrMore :: (" is preceded by another ".toList ++ [language.zeroOrMore])))
    else (atoms.dropLast ++ [·]) <$> latest.asRepeatable

/-- The atoms after one more character, which the cursor has just handed out. -/
def takeIn (language : Language) (cursor : Cursor) (atoms : List Atom) (c : Char) :
    Except Fault (List Atom) :=
  if c = language.zeroOrMore then language.repeatLatest cursor atoms
  else .ok (atoms ++ [language.atomFor c false])

/-- The pattern of the atoms so far and of what the cursor still hands out. -/
def readAlong (language : Language) (cursor : Cursor) (atoms : List Atom) : Except Fault Pattern :=
  match h : cursor.next with
  | (.error _, _) => .ok ⟨atoms⟩
  | (.ok c, later) =>
    have : later.remaining.length < cursor.remaining.length := Cursor.length_remaining_of_next h
    match language.takeIn later atoms c with
    | .error fault => .error fault
    | .ok atoms => language.readAlong later atoms
termination_by cursor.remaining.length

theorem readAlong_of_exhausted {language : Language} {cursor later : Cursor} {fault : Fault}
    (h : cursor.next = (.error fault, later)) (atoms : List Atom) :
    language.readAlong cursor atoms = .ok ⟨atoms⟩ := by
  rw [readAlong]
  split
  next => rfl
  next hnext => cases h.symm.trans hnext

theorem readAlong_of_next {language : Language} {cursor later : Cursor} {c : Char}
    (h : cursor.next = (.ok c, later)) (atoms : List Atom) :
    language.readAlong cursor atoms =
      match language.takeIn later atoms c with
      | .error fault => .error fault
      | .ok atoms => language.readAlong later atoms := by
  rw [readAlong]
  split
  next hnext => cases h.symm.trans hnext
  next hnext =>
    cases h.symm.trans hnext
    rfl

end Language

end StarPattern
