/-
**What a sequence of atoms matches.**

The relation between sequences of atoms and texts that says what matching means, apart from any way
of deciding it.  An atom that is not repeatable takes exactly one character that it accepts; a
repeatable atom takes any number of them, one after another.  The whole text has to be taken.

Main definition:

* `StarPattern.Matches` — the sequence of atoms matches the text.
-/
import StarPattern.Pattern

set_option relaxedAutoImplicit false
set_option autoImplicit false

namespace StarPattern

/-- The sequence of atoms matches the text, all of it. -/
inductive Matches : List Atom → Text → Prop
  | nil : Matches [] []
  | one {atom : Atom} {rest : List Atom} {c : Char} {text : Text} :
      atom.repeatable = false → atom.accepts c = true → Matches rest text →
      Matches (atom :: rest) (c :: text)
  | skip {atom : Atom} {rest : List Atom} {text : Text} :
      atom.repeatable = true → Matches rest text → Matches (atom :: rest) text
  | more {atom : Atom} {rest : List Atom} {c : Char} {text : Text} :
      atom.repeatable = true → atom.accepts c = true → Matches (atom :: rest) text →
      Matches (atom :: rest) (c :: text)

end StarPattern
