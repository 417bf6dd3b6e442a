/-
**Writing a pattern as text.**

An atom is written as its character, with the repeat marker after it if it is repeatable.  There is
no escape: a literal that is one of the special characters cannot be written, and neither can an
abstract atom or the invalid pattern.  The first atom that cannot be written decides.

Main definitions:

* `StarPattern.Language.write` — the text of a pattern;
* `StarPattern.Language.convert` — the same pattern in the signs of another language.
-/
import StarPattern.Language.Reading

set_option relaxedAutoImplicit false
set_option autoImplicit false

namespace StarPattern

namespace Language

/-- The sign for an atom, without the marker. -/
def sign (language : Language) (atom : Atom) : Except Fault Char :=
  match atom.kind with
  | .wildcard => .ok language.any
  | .literal c => if language.IsSpecial c then .error (.writesSpecial c) else .ok c
  | .abstract => .error (.writesAbstract atom)

/-- The marker, where the atom is repeatable. -/
def marker (language : Language) (atom : Atom) : Text :=
  if atom.repeatable then [language.zeroOrMore] else []

theorem marker_of_repeatable {language : Language} {atom : Atom} (h : atom.repeatable = true) :
    language.marker atom = [language.zeroOrMore] := by
  simp [marker, h]

theorem marker_of_plain {language : Language} {atom : Atom} (h : atom.repeatable = false) :
    language.marker atom = [] := by
  simp [marker, h]

/-- The text of a sequence of atoms. -/
def writeAtoms (language : Language) : List Atom → Except Fault Text
  | [] => .ok []
  | atom :: rest =>
    match language.sign atom with
    | .error fault => .error fault
    | .ok c => (fun text => c :: (language.marker atom ++ text)) <$> language.writeAtoms rest

/-- The text of a pattern. -/
def write (language : Language) : Parsed → Except Fault Text
  | .invalid => .error .writesInvalid
  | .valid pattern => language.writeAtoms pattern.atoms

/-- The text, in the signs of the target, of the pattern that a text stands for in the source. -/
def convert (source target : Language) (text : Text) : Except Fault Text :=
  match source.parse text with
  | .error rejection => .error (.rejected rejection)
  | .ok pattern => target.write (.valid pattern)

end Language

end StarPattern
