/-
**Closing a list of states one state after another.**

The closure of `StarPattern/Automaton/Closure.lean` lays out the atoms ahead of a state and goes
through them.  A list of states can also be closed without laying out anything: a walk stands in a
state, notes that the state has been reached, looks up the atom there, and moves on by one state if
that atom is repeatable.  It ends in a state that has been reached before, in the final state, and
before an atom that is not repeatable.  There is an atom only in states before the final one, so
each move brings the walk nearer to the final state, also from a state that counts from the back.

Main definitions:

* `StarPattern.Pattern.walkOn` — the states reached after a walk;
* `StarPattern.Pattern.closeByWalks` — the states reached after walks from all states of a list.
-/
import StarPattern.Automaton.Closure

set_option relaxedAutoImplicit false
set_option autoImplicit false

namespace StarPattern

namespace Pattern

/-- There is an atom only in states before the final one. -/
theorem lt_final_of_get {pattern : Pattern} {state : Int} {atom : Atom}
    (h : pattern.get state = .ok atom) : state < pattern.final := by
  rw [get] at h
  split at h
  next found hfound =>
    obtain ⟨offset, ho, ha⟩ := Option.bind_eq_some_iff.1 hfound
    have hlt : offset < pattern.length := (List.getElem?_eq_some_iff.1 ha).1
    rw [offset?] at ho
    rw [final]
    split at ho
    next hpos =>
      split at ho
      next =>
        cases ho
        omega
      next => cases ho
    next => omega
  next => cases h

/-- The states that have been reached, after a walk from a state on. -/
def walkOn (pattern : Pattern) (reached : StateSet) (state : Int) : Except Fault StateSet :=
  if state ∈ reached then .ok reached
  else if state = pattern.final then .ok (reached.insert state)
  else
    match h : pattern.get state with
    | .error fault => .error fault
    | .ok atom =>
      have : state < pattern.final := lt_final_of_get h
      if atom.repeatable then pattern.walkOn (reached.insert state) (state + 1)
      else .ok (reached.insert state)
termination_by (pattern.final - state).toNat

/-- The states that have been reached after a walk from each of a list of states. -/
def closeByWalks (pattern : Pattern) (states : List Int) : Except Fault StateSet :=
  states.foldlM pattern.walkOn ∅

section Walks

variable {pattern : Pattern} {reached : StateSet} {state : Int} {atom : Atom} {fault : Fault}

/-! ### The ways in which a walk can go on -/

theorem walkOn_of_mem (h : state ∈ reached) : pattern.walkOn reached state = .ok reached := by
  rw [walkOn, if_pos h]

theorem walkOn_final (h : pattern.final ∉ reached) :
    pattern.walkOn reached pattern.final = .ok (reached.insert pattern.final) := by
  rw [walkOn, if_neg h, if_pos rfl]

theorem walkOn_of_error (h : state ∉ reached) (hf : state ≠ pattern.final)
    (hg : pattern.get state = .error fault) :
    pattern.walkOn reached state = .error fault := by
  rw [walkOn, if_neg h, if_neg hf]
  split
  next hg' => cases hg.symm.trans hg'; rfl
  next hg' => cases hg.symm.trans hg'

theorem walkOn_of_get (h : state ∉ reached) (hg : pattern.get state = .ok atom) :
    pattern.walkOn reached state =
      if atom.repeatable then pattern.walkOn (reached.insert state) (state + 1)
      else .ok (reached.insert state) := by
  have hf : state ≠ pattern.final := Int.ne_of_lt (lt_final_of_get hg)
  rw [walkOn, if_neg h, if_neg hf]
  split
  next hg' => cases hg.symm.trans hg'
  next hg' => cases hg.symm.trans hg'; rfl

end Walks

end Pattern

end StarPattern
