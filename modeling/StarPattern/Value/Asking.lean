/-
**Equality by asking the values.**

No class knows all the others, so two values are compared by asking them about each other.  A value
has an opinion about the members of its own class, and wildcards and literals are members of the
class of the abstract atoms; about anything else it has none.  The left value is asked first, unless
the right one belongs to a more special class; then the other one is asked; and if neither has an
opinion, only one and the same value is equal.

Whether two values differ is asked separately.  Most values answer that by comparing themselves
anew, so they always have an answer; the invalid pattern and plain values turn their opinion around.

Main definitions:

* `StarPattern.consult` — what comes of two opinions;
* `StarPattern.Atom.opinion`, `StarPattern.Value.opinion` — what one value says about another;
* `StarPattern.Atom.asked`, `StarPattern.Value.asked`, `StarPattern.Value.askedApart` — equality and
  inequality by asking.

Main results:

* `StarPattern.consult_eq` — opinions that are right decide, whoever is asked first.
-/
import StarPattern.Value

set_option relaxedAutoImplicit false
set_option autoImplicit false

namespace StarPattern

/-- The first opinion of two that there is, or else the answer for when there is none.  The right
one is asked first if that is demanded. -/
def consult (rightFirst : Bool) (left right : Option Bool) (otherwise : Bool) : Bool :=
  (if rightFirst then right.or left else left.or right).getD otherwise

/-- If every opinion is the right answer, and the answer does not depend on the order, it does not
matter who is asked first. -/
theorem consult_eq {β : Type} {opinion : β → β → Option Bool} {answer : β → β → Bool}
    {first second : β} {otherwise : Bool} (rightFirst : Bool)
    (hopinion : ∀ {a b : β} {x : Bool}, opinion a b = some x → x = answer a b)
    (hcomm : answer second first = answer first second)
    (hnone : opinion first second = none → opinion second first = none →
      otherwise = answer first second) :
    consult rightFirst (opinion first second) (opinion second first) otherwise =
      answer first second := by
  cases hl : opinion first second with
  | none =>
      cases hr : opinion second first with
      | none => simpa [consult] using hnone hl hr
      | some y =>
          have hy : y = answer first second := (hopinion hr).trans hcomm
          simpa [consult] using hy
  | some x =>
      have hx : x = answer first second := hopinion hl
      cases hr : opinion second first with
      | none => simpa [consult] using hx
      | some y =>
          have hy : y = answer first second := (hopinion hr).trans hcomm
          simp [consult, hx, hy]

/-! ### Atoms -/

namespace Atom

/-- The first atom belongs to the class of the second; all belong to that of the abstract ones. -/
def within : Atom → Atom → Bool
  | _, ⟨.abstract, _⟩ => true
  | ⟨.wildcard, _⟩, ⟨.wildcard, _⟩ => true
  | ⟨.literal _, _⟩, ⟨.literal _, _⟩ => true
  | _, _ => false

/-- The class of the first atom is a special case of that of the second. -/
def isSpecial (first second : Atom) : Bool := first.within second && !second.within first

/-- What an atom says about a member of its class: the marks decide, for literals together with the
characters. -/
def opinion (first second : Atom) : Option Bool :=
  if second.within first then
    some (match first.kind, second.kind with
      | .literal c, .literal d => c == d && first.repeatable == second.repeatable
      | _, _ => first.repeatable == second.repeatable)
  else none

/-- Equality of atoms by asking them. -/
def asked (first second : Atom) : Bool :=
  consult (second.isSpecial first) (first.opinion second) (second.opinion first)
    (decide (first = second))

end Atom

/-! ### Values -/

namespace Value

variable {α : Type} [DecidableEq α]

/-- What a value says about another.  A pattern compares the atoms one by one, each of them by
asking, and a language compares its signs. -/
def opinion : Value α → Value α → Option Bool
  | atom first, atom second => first.opinion second
  | pattern (.valid first), pattern (.valid second) =>
    some (first.atoms.isEqv second.atoms Atom.asked)
  | pattern .invalid, pattern .invalid => some true
  | language first, language second =>
    some (first.any == second.any && first.zeroOrMore == second.zeroOrMore)
  | plain first, plain second => some (decide (first = second))
  | _, _ => none

/-- The class of the first value is a special case of that of the second. -/
def isSpecial : Value α → Value α → Bool
  | atom first, atom second => first.isSpecial second
  | _, _ => false

/-- Equality of values by asking them. -/
def asked (first second : Value α) : Bool :=
  consult (second.isSpecial first) (first.opinion second) (second.opinion first)
    (decide (first = second))

/-- What a value says to the question whether it differs from another. -/
def denial (first second : Value α) : Option Bool :=
  match first with
  | atom _ | pattern (.valid _) | language _ => some (!first.asked second)
  | pattern .invalid | plain _ => (first.opinion second).map not

/-- Inequality of values by asking them. -/
def askedApart (first second : Value α) : Bool :=
  consult (second.isSpecial first) (first.denial second) (second.denial first)
    (decide (first ≠ second))

end Value

end StarPattern
