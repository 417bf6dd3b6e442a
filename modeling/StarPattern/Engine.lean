/-
**Engines.**

There are two ways of deciding a match, by the table and by the automaton, and they are
interchangeable.  A third engine is abstract: it stands where neither has been chosen, and asking it
for a decision is a fault.

Main definitions:

* `StarPattern.Engine`, `StarPattern.Engine.accepts` — the engines and their decisions;
* `StarPattern.decideMatch` — the decision for a pattern text in the standard language;
* `StarPattern.Automaton.acceptsAll` — the decisions of one automaton for sources in a row;
* `StarPattern.compareEngines` — the decisions of all ways side by side.
-/
import StarPattern.Automaton
import StarPattern.Language.Reading
import StarPattern.Table

set_option relaxedAutoImplicit false
set_option autoImplicit false

namespace StarPattern

/-- A way of deciding a match. -/
inductive Engine
  | table
  | automaton
  | abstract
  deriving DecidableEq, Repr

namespace Engine

/-- The decision of an engine that has not been used before. -/
def accepts : Engine → Parsed → Source → Except Fault Bool
  | table, parsed, source => Table.accepts parsed source
  | automaton, parsed, source => ((Automaton.start parsed).accepts source).1
  | abstract, _, _ => .error .undecided

/-- The name of an engine. -/
def name : Engine → Text
  | table => "TableMatcher".toList
  | automaton => "StateSetMatcher".toList
  | abstract => "MatcherBase".toList

/-- The printed form of an engine for a pattern. -/
def describe (rep : Repertoire) (engine : Engine) (parsed : Parsed) : Text :=
  engine.name ++ '(' :: (parsed.describe rep ++ [')'])

end Engine

/-- Whether a pattern text, read in the standard language, matches a text; a text that is no pattern
matches nothing. -/
def decideMatch (pattern text : Source) : Except Fault Bool := do
  let signs ← pattern.toText
  Table.accepts (Language.standard.interpret signs) text

/-- The decisions of one automaton for sources in a row. -/
def Automaton.acceptsAll : Automaton → List Source → List (Except Fault Bool)
  | _, [] => []
  | automaton, source :: rest =>
    let answer := automaton.accepts source
    answer.1 :: answer.2.acceptsAll rest

/-- For each text the decision for the pattern text, that of the table and that of one automaton;
the first fault ends the comparison. -/
def compareEngines (pattern : Source) (texts : List Source) : Except Fault (List (List Bool)) := do
  let signs ← pattern.toText
  let parsed := Language.standard.interpret signs
  let followed := (Automaton.start parsed).acceptsAll texts
  (texts.zip followed).mapM fun (text, byAutomaton) => do
    return [← decideMatch pattern text, ← Table.accepts parsed text, ← byAutomaton]

end StarPattern
