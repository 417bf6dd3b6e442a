/-
**Known transitions.**

The transition from a set of states under a symbol leads to the set of states after reading the
symbol.  The transitions whose result is known are kept in a finite map, in the ascending order of
the sets of states and, for one set, of the symbols.

Main definitions:

* `StarPattern.Transition` — a set of states and a symbol;
* `StarPattern.Transitions` — a finite map from transitions to sets of states.

Main result:

* `StarPattern.Transitions.find?_insert` — what is known after one more transition.
-/
import Std.Data.ExtTreeMap
import StarPattern.Text.Basic
import StarPattern.Automaton.StateSet

set_option relaxedAutoImplicit false
set_option autoImplicit false

namespace StarPattern

/-- A set of states and the symbol that is read in them. -/
structure Transition where
  states : StateSet
  symbol : Text
  deriving DecidableEq, Repr

namespace Transition

/-- Transitions are ordered by their states, and for the same states by their symbols. -/
instance : Ord Transition where
  compare :=
    compareLex (compareOn fun transition => transition.states.toList)
      (compareOn fun transition => transition.symbol)

instance : Std.TransOrd Transition :=
  inferInstanceAs (Std.TransCmp
    (compareLex (compareOn fun transition : Transition => transition.states.toList)
      (compareOn fun transition : Transition => transition.symbol)))

instance : Std.LawfulEqOrd Transition where
  eq_of_compare {first second} equal := by
    obtain ⟨states, symbol⟩ := Ordering.then_eq_eq.1 equal
    rcases first with ⟨⟨_, _⟩, _⟩
    rcases second with ⟨⟨_, _⟩, _⟩
    cases Std.LawfulEqOrd.eq_of_compare states
    cases Std.LawfulEqOrd.eq_of_compare symbol
    rfl

end Transition

/-- The transitions whose result is known. -/
structure Transitions where
  results : Std.ExtTreeMap Transition StateSet

namespace Transitions

/-- Nothing is known. -/
def empty : Transitions := ⟨∅⟩

/-- The known result of a transition. -/
def find? (known : Transitions) (transition : Transition) : Option StateSet :=
  known.results[transition]?

/-- One more result is known. -/
def insert (known : Transitions) (transition : Transition) (result : StateSet) : Transitions :=
  ⟨known.results.insert transition result⟩

/-- The number of transitions whose result is known. -/
def size (known : Transitions) : Nat := known.results.size

/-- The known transitions with their results, in order. -/
def toList (known : Transitions) : List (Transition × StateSet) := known.results.toList

@[simp] theorem find?_empty (transition : Transition) : empty.find? transition = none :=
  Std.ExtTreeMap.getElem?_empty

theorem find?_insert (known : Transitions) (added transition : Transition) (result : StateSet) :
    (known.insert added result).find? transition =
      if added = transition then some result else known.find? transition := by
  have lookup := Std.ExtTreeMap.getElem?_insert (t := known.results) (k := added)
    (a := transition) (v := result)
  simpa [find?, insert, Std.LawfulEqCmp.compare_eq_iff_eq] using lookup

@[simp] theorem size_empty : empty.size = 0 := Std.ExtTreeMap.size_empty

theorem size_insert_le (known : Transitions) (transition : Transition) (result : StateSet) :
    (known.insert transition result).size ≤ known.size + 1 :=
  Std.ExtTreeMap.size_insert_le

end Transitions

end StarPattern
