/-
**States and the moves between them.**

A state is the number of atoms that have been dealt with.  From a state before a repeatable atom the
automaton may move on without reading, so a set of states is closed by adding, for each of its
states, the states that are passed up to the first atom that is not repeatable, or up to the final
state behind the last atom.  A negative state counts from behind the last atom, and the walk from it
goes on at the front of the pattern when it has come to the end.

Reading a symbol takes the automaton from a state past an atom that accepts it, or leaves it before
that atom if it is repeatable.

Main definitions:

* `StarPattern.Pattern.closure` — a list of states, closed;
* `StarPattern.Pattern.moves` — the states in which reading a symbol leaves a list of states;
* `StarPattern.Parsed.closure`, `StarPattern.Parsed.successors` — the same for what was read, where
  the invalid pattern has no states;
* `StarPattern.Parsed.blame` — the cause of a failure, told by the integer that is no state.
-/
import StarPattern.Pattern
import StarPattern.Automaton.StateSet

set_option relaxedAutoImplicit false
set_option autoImplicit false

namespace StarPattern

namespace Pattern

/-- The final state, behind the last atom. -/
def final (pattern : Pattern) : Int := pattern.length

/-- The atoms that are ahead in a state, if it is a state of the pattern. -/
def ahead? (pattern : Pattern) (state : Int) : Option (List Atom) :=
  (pattern.offset? state).map fun offset =>
    if state < 0 then pattern.atoms.drop offset ++ pattern.atoms else pattern.atoms.drop offset

/-- The states that are passed without reading from a state on, with these atoms ahead, as long as
they have not been reached before. -/
def passed (reached : StateSet) : List Atom → Int → List Int
  | [], state => if state ∈ reached then [] else [state]
  | atom :: rest, state =>
    if state ∈ reached then []
    else if atom.repeatable then state :: passed reached rest (state + 1)
    else [state]

/-- A closed set together with the states passed from each of a list of states. -/
def closureFrom (pattern : Pattern) : StateSet → List Int → Except Fault StateSet
  | reached, [] => .ok reached
  | reached, state :: rest =>
    match pattern.ahead? state with
    | none => .error .outsidePattern
    | some ahead => pattern.closureFrom (reached.insertAll (passed reached ahead state)) rest

/-- The states passed without reading from each of a list of states. -/
def closure (pattern : Pattern) (states : List Int) : Except Fault StateSet :=
  pattern.closureFrom ∅ states

/-- The first of a list of integers that is no state. -/
def stray? (pattern : Pattern) (states : List Int) : Option Int :=
  states.find? fun state => (pattern.offset? state).isNone

/-- The states in which reading the symbol leaves each of a list of states; from the final state
there is no move. -/
def moves (pattern : Pattern) (symbol : Text) : List Int → Except Fault (List Int)
  | [] => .ok []
  | state :: rest =>
    if state = pattern.final then pattern.moves symbol rest
    else do
      let atom ← pattern.get state
      let accepted ← atom.acceptsText symbol
      let moved ← pattern.moves symbol rest
      return if accepted then (if atom.repeatable then state else state + 1) :: moved else moved

end Pattern

namespace Parsed

/-- The closure of a list of states; no states are closed under any pattern. -/
def closure : Parsed → List Int → Except Fault StateSet
  | _, [] => .ok ∅
  | invalid, _ :: _ => .error .invalidLength
  | valid pattern, states => pattern.closure states

/-- The states in which reading the symbol leaves a list of states. -/
def moves (symbol : Text) : Parsed → List Int → Except Fault (List Int)
  | _, [] => .ok []
  | invalid, _ :: _ => .error .invalidLength
  | valid pattern, states => pattern.moves symbol states

/-- The set of states after reading the symbol in a set of states. -/
def successors (parsed : Parsed) (states : StateSet) (symbol : Text) : Except Fault StateSet :=
  parsed.moves symbol states.toList >>= parsed.closure

/-- The cause why there is no answer for a list of states: the first integer that is no state may be
one that cannot be an index. -/
def blame (states : List Int) : Parsed → Fault → Fault
  | valid pattern, .outsidePattern =>
    match pattern.stray? states with
    | some state => .ofIndex state .outsidePattern
    | none => .outsidePattern
  | _, fault => fault

end Parsed

end StarPattern
