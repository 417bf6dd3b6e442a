/-
**Atoms.**

An atom is a single unit of a pattern: it accepts some characters, and it may be repeatable.  A
wildcard accepts every character and a literal accepts one.  An abstract atom is a place in a
pattern for which it is not settled what it accepts: it can be stored, compared and printed, and it
can be left out if it is repeatable, but it accepts nothing.

Main definitions:

* `StarPattern.Atom` — a kind together with the mark of repetition;
* `StarPattern.Atom.IsConcrete` — the atom is not abstract;
* `StarPattern.Atom.accepts` — the characters that an atom accepts;
* `StarPattern.Atom.describe` — the printed form.
-/
import StarPattern.Text.Quoted

set_option relaxedAutoImplicit false
set_option autoImplicit false

namespace StarPattern

/-- What an atom accepts. -/
inductive Atom.Kind
  | wildcard
  | literal (c : Char)
  | abstract
  deriving DecidableEq, Repr

/-- A single unit of a pattern. -/
structure Atom where
  kind : Atom.Kind
  repeatable : Bool
  deriving DecidableEq, Repr

namespace Atom

/-- A wildcard. -/
def wildcard (repeatable : Bool) : Atom := ⟨.wildcard, repeatable⟩

/-- A literal for a character. -/
def literal (c : Char) (repeatable : Bool) : Atom := ⟨.literal c, repeatable⟩

/-- The atom is a wildcard or a literal. -/
def IsConcrete (atom : Atom) : Prop := atom.kind ≠ .abstract

instance (atom : Atom) : Decidable atom.IsConcrete :=
  inferInstanceAs (Decidable (atom.kind ≠ .abstract))

/-- Whether the atom accepts the character; an abstract atom accepts none. -/
def accepts (atom : Atom) (c : Char) : Bool :=
  match atom.kind with
  | .wildcard => true
  | .literal d => c == d
  | .abstract => false

theorem accepts_eq_true_iff {atom : Atom} {c : Char} :
    atom.accepts c = true ↔ atom.kind = .wildcard ∨ atom.kind = .literal c := by
  rcases atom with ⟨kind, repeatable⟩
  cases kind with
  | wildcard => simp [accepts]
  | literal d => simpa [accepts] using (eq_comm : c = d ↔ d = c)
  | abstract => simp [accepts]

/-! ### Names and printed forms -/

/-- The name of the atom's kind. -/
def kindName (atom : Atom) : Text :=
  match atom.kind with
  | .wildcard => "Wildcard".toList
  | .literal _ => "Literal".toList
  | .abstract => "Atom".toList

/-- The printed form of the mark of repetition. -/
def flag (repeatable : Bool) : Text :=
  if repeatable then "repeatable=True".toList else "repeatable=False".toList

/-- The printed form of an atom: its kind, the character of a literal, and the mark. -/
def describe (rep : Repertoire) (atom : Atom) : Text :=
  atom.kindName ++ '(' ::
    ((match atom.kind with
      | .literal c => Text.quoted rep [c] ++ ", ".toList
      | _ => []) ++
    flag atom.repeatable ++ [')'])

end Atom

end StarPattern
