/-
**Decisions of atoms.**

A wildcard and a literal decide about any text that is put to them.  An abstract atom cannot decide,
so asking it about a text, or about each character of a text that has one, is a fault.

Main definitions:

* `StarPattern.Atom.acceptsText`, `StarPattern.Atom.hits` — the decision for a text as a whole, and
  for each of its characters;
* `StarPattern.Atom.literalOf`, `StarPattern.Atom.asRepeatable`, `StarPattern.Atom.assign` — atoms
  from a text, and from other atoms.

Main results:

* `StarPattern.Atom.hits_of_isConcrete`, `StarPattern.Atom.acceptsText_singleton` — for an atom that
  is not abstract both decisions are those of `StarPattern.Atom.accepts`.
-/
import StarPattern.Fault

set_option relaxedAutoImplicit false
set_option autoImplicit false

namespace StarPattern

namespace Atom

/-- The decision for a text as a whole: a literal compares it, a wildcard takes any text. -/
def acceptsText (atom : Atom) (text : Text) : Except Fault Bool :=
  match atom.kind with
  | .wildcard => .ok true
  | .literal c => .ok (text == [c])
  | .abstract => .error .undecided

/-- The decision for each character of a text; on the empty text there is none to make. -/
def hits (atom : Atom) (text : Text) : Except Fault (List Bool) :=
  match atom.kind, text with
  | .abstract, _ :: _ => .error .undecided
  | _, _ => .ok (text.map atom.accepts)

theorem hits_of_isConcrete {atom : Atom} (concrete : atom.IsConcrete) (text : Text) :
    atom.hits text = .ok (text.map atom.accepts) := by
  rcases atom with ⟨kind, repeatable⟩
  cases kind with
  | abstract => exact absurd rfl concrete
  | wildcard => rfl
  | literal c => rfl

theorem acceptsText_singleton {atom : Atom} (concrete : atom.IsConcrete) (c : Char) :
    atom.acceptsText [c] = .ok (atom.accepts c) := by
  rcases atom with ⟨kind, repeatable⟩
  cases kind with
  | abstract => exact absurd rfl concrete
  | wildcard => rfl
  | literal d => simp [acceptsText, accepts]

theorem hits_of_abstract {atom : Atom} (h : ¬ atom.IsConcrete) {text : Text} (ht : text ≠ []) :
    atom.hits text = .error .undecided := by
  obtain ⟨c, rest, rfl⟩ := List.exists_cons_of_ne_nil ht
  simp only [hits, Decidable.not_not.1 h]

theorem acceptsText_of_abstract {atom : Atom} (h : ¬ atom.IsConcrete) (text : Text) :
    atom.acceptsText text = .error .undecided := by
  simp only [acceptsText, Decidable.not_not.1 h]

/-! ### Atoms from texts and from atoms -/

/-- The literal for a text, which has to be made of one character. -/
def literalOf (raw : Text) (repeatable : Bool) : Except Fault Atom :=
  match raw with
  | [c] => .ok (literal c repeatable)
  | _ => .error (.literalLength raw)

/-- The same atom with the mark of repetition. -/
def asRepeatable (atom : Atom) : Except Fault Atom :=
  match atom.kind with
  | .abstract => .error .undecided
  | _ => .ok { atom with repeatable := true }

/-- Atoms do not change: an assignment to any attribute is refused. -/
def assign (atom : Atom) (_attribute : Text) : Except Fault Atom :=
  .error (.immutable atom.kindName)

end Atom

end StarPattern
