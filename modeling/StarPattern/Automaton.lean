/-
**Matching by an automaton.**

The automaton of a pattern follows all the states that can be reached at once, so that no state is
looked at twice for one character.  It keeps the transitions that it has worked out.  A transition
that is known is not worked out again; one that fails is not kept.  Deciding a match starts without
any knowledge, and stops at the first character after which no state is left.

Main definitions:

* `StarPattern.Automaton` — a pattern and the transitions that are known for it;
* `StarPattern.Automaton.advance` — one transition;
* `StarPattern.Automaton.accepts` — the decision;
* `StarPattern.Automaton.walk` — the sets of states along a text;
* `StarPattern.Automaton.step`, `StarPattern.Automaton.run` — one request, and requests in a row.
-/
import StarPattern.Source.ToText
import StarPattern.Automaton.Closure
import StarPattern.Automaton.Transitions

set_option relaxedAutoImplicit false
set_option autoImplicit false

namespace StarPattern

/-- A pattern and the transitions that are known for it. -/
structure Automaton where
  pattern : Parsed
  known : Transitions

namespace Automaton

/-- The automaton of a pattern, without any knowledge. -/
def start (pattern : Parsed) : Automaton := ⟨pattern, .empty⟩

/-- The same automaton without any knowledge. -/
def forget (automaton : Automaton) : Automaton := start automaton.pattern

/-- The final state. -/
def final (automaton : Automaton) : Except Fault Int :=
  (fun length : Nat => (length : Int)) <$> automaton.pattern.length

/-- Whether the final state is among the states. -/
def containsFinal (automaton : Automaton) (states : List Int) : Except Fault Bool :=
  (fun final => decide (final ∈ states)) <$> automaton.final

/-- The set of states after a symbol, worked out only if it is not known. -/
def advance (automaton : Automaton) (states : StateSet) (symbol : Text) :
    Except Fault StateSet × Automaton :=
  match automaton.known.find? ⟨states, symbol⟩ with
  | some result => (.ok result, automaton)
  | none =>
    match automaton.pattern.successors states symbol with
    | .ok result =>
      (.ok result, { automaton with known := automaton.known.insert ⟨states, symbol⟩ result })
    | .error fault => (.error fault, automaton)

/-- The set of states after a text, or the empty set as soon as no state is left. -/
def follow : Automaton → StateSet → Text → Except Fault StateSet × Automaton
  | automaton, states, [] => (.ok states, automaton)
  | automaton, states, c :: rest =>
    match automaton.advance states [c] with
    | (.error fault, automaton) => (.error fault, automaton)
    | (.ok next, automaton) =>
      if next.isEmpty then (.ok next, automaton) else automaton.follow next rest

/-- Whether the pattern matches the text of the source.  The invalid pattern matches nothing and
keeps what is known; any other pattern starts anew, even if the source holds no text. -/
def accepts (automaton : Automaton) (source : Source) : Except Fault Bool × Automaton :=
  match automaton.pattern with
  | .invalid => (.ok false, automaton)
  | .valid pattern =>
    match pattern.closure [0], source.toText with
    | .error fault, _ => (.error fault, automaton.forget)
    | .ok _, .error fault => (.error fault, automaton.forget)
    | .ok states, .ok text =>
      let answer := automaton.forget.follow states text
      (answer.1.map fun reached => decide (pattern.final ∈ reached), answer.2)

/-- The sets of states after each character of a text. -/
def walkFrom : Automaton → StateSet → Text → Except Fault (List StateSet) × Automaton
  | automaton, _, [] => (.ok [], automaton)
  | automaton, states, c :: rest =>
    match automaton.advance states [c] with
    | (.error fault, automaton) => (.error fault, automaton)
    | (.ok next, automaton) =>
      let answer := automaton.walkFrom next rest
      (answer.1.map (next :: ·), answer.2)

/-- The sets of states along a text, from the first one on. -/
def walk (automaton : Automaton) (text : Text) : Except Fault (List StateSet) × Automaton :=
  match automaton.pattern.closure [0] with
  | .error fault => (.error fault, automaton)
  | .ok states =>
    let answer := automaton.walkFrom states text
    (answer.1.map (states :: ·), answer.2)

/-! ### Requests in a row -/

/-- A request to an automaton. -/
inductive Request
  | final
  | containsFinal (states : List Int)
  | closure (states : List Int)
  | advance (states : StateSet) (symbol : Text)
  | accepts (source : Source)
  | walk (text : Text)
  | known
  deriving DecidableEq, Repr

/-- The answer to a request that was met. -/
inductive Reply
  | state (state : Int)
  | decision (holds : Bool)
  | states (states : StateSet)
  | walk (sets : List StateSet)
  | known (results : List (Transition × StateSet))
  deriving DecidableEq, Repr

/-- Meets a request. -/
def step (automaton : Automaton) : Request → Except Fault Reply × Automaton
  | .final => (automaton.final.map .state, automaton)
  | .containsFinal states => ((automaton.containsFinal states).map .decision, automaton)
  | .closure states =>
    let closed := automaton.pattern.closure states
    ((closed.mapError (automaton.pattern.blame states)).map .states, automaton)
  | .advance states symbol =>
    let answer := automaton.advance states symbol
    ((answer.1.mapError (automaton.pattern.blame states.toList)).map .states, answer.2)
  | .accepts source =>
    let answer := automaton.accepts source
    (answer.1.map .decision, answer.2)
  | .walk text =>
    let answer := automaton.walk text
    (answer.1.map .walk, answer.2)
  | .known => (.ok (.known automaton.known.toList), automaton)

/-- Meets the requests in order; each answer stands with the automaton after it. -/
def run (automaton : Automaton) : List Request → List (Except Fault Reply × Automaton)
  | [] => []
  | request :: requests =>
    let answer := automaton.step request
    answer :: answer.2.run requests

end Automaton

end StarPattern
