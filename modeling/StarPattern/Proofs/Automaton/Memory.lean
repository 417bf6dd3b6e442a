/-
**The memory of an automaton never changes an answer.**

An automaton keeps the transitions that it has worked out, and uses them again.  What is kept is
right in every state that can be reached by requests, whether they were met or not: each transition
that is known leads where it would lead if it were worked out now.  So an automaton with a history
answers like a new one.  Only a decision makes it forget; every other request adds to what is known
and takes nothing away.

Main definitions:

* `StarPattern.Automaton.after` — an automaton after requests in a row;
* `StarPattern.Automaton.Truthful` — all that is known is right;
* `StarPattern.Automaton.Learns` — one automaton knows what another knows, and no falsehood more.

Main results:

* `StarPattern.Automaton.advance_learns` — **one transition**, known or not;
* `StarPattern.Automaton.step_learns`, `StarPattern.Automaton.step_truthful` — one request;
* `StarPattern.Automaton.step_congr` — two truthful automata of a pattern give one answer;
* `StarPattern.Automaton.after_truthful` — **every state that can be reached** is truthful;
* `StarPattern.Automaton.answers_independent_of_history` — the memory cannot be observed.
-/
import StarPattern.Automaton

set_option relaxedAutoImplicit false
set_option autoImplicit false

namespace StarPattern

/-! ### Without a memory -/

namespace Parsed

/-- The set of states after a text, or the empty set as soon as no state is left, with every
transition worked out. -/
def follow (parsed : Parsed) : StateSet → Text → Except Fault StateSet
  | states, [] => .ok states
  | states, c :: rest =>
    match parsed.successors states [c] with
    | .error fault => .error fault
    | .ok next => if next.isEmpty then .ok next else parsed.follow next rest

/-- The sets of states after each character of a text, with every transition worked out. -/
def setsFrom (parsed : Parsed) : StateSet → Text → Except Fault (List StateSet)
  | _, [] => .ok []
  | states, c :: rest =>
    match parsed.successors states [c] with
    | .error fault => .error fault
    | .ok next => (parsed.setsFrom next rest).map (next :: ·)

end Parsed

namespace Automaton

variable {automaton first second third : Automaton} {states : StateSet} {symbol text : Text}
variable {fault : Fault} {request : Request} {requests : List Request} {parsed : Parsed}

/-! ### Knowledge -/

/-- Every transition that is known leads where it would lead if it were worked out now. -/
def Truthful (automaton : Automaton) : Prop :=
  ∀ transition result, automaton.known.find? transition = some result →
    automaton.pattern.successors transition.states transition.symbol = .ok result

theorem start_truthful (parsed : Parsed) : (start parsed).Truthful := by
  intro transition result h
  rw [start, Transitions.find?_empty] at h
  cases h

/-- The second automaton has the pattern of the first, knows at least what the first knows, and is
truthful if the first is. -/
structure Learns (first second : Automaton) : Prop where
  pattern_eq : second.pattern = first.pattern
  keeps {transition : Transition} {result : StateSet} :
    first.known.find? transition = some result → second.known.find? transition = some result
  truthful : first.Truthful → second.Truthful

namespace Learns

theorem refl (automaton : Automaton) : Learns automaton automaton := ⟨rfl, id, id⟩

theorem trans (h : Learns first second) (h' : Learns second third) : Learns first third where
  pattern_eq := h'.pattern_eq.trans h.pattern_eq
  keeps hf := h'.keeps (h.keeps hf)
  truthful ht := h'.truthful (h.truthful ht)

end Learns

/-! ### One transition -/

/-- All that a transition can do: it is known already, or it is worked out and kept, or it fails and
changes nothing. -/
theorem advance_cases (automaton : Automaton) (states : StateSet) (symbol : Text) :
    (∃ result, automaton.known.find? ⟨states, symbol⟩ = some result ∧
      automaton.advance states symbol = (.ok result, automaton)) ∨
    (∃ result, automaton.known.find? ⟨states, symbol⟩ = none ∧
      automaton.pattern.successors states symbol = .ok result ∧
      automaton.advance states symbol =
        (.ok result, { automaton with known := automaton.known.insert ⟨states, symbol⟩ result })) ∨
    (∃ fault, automaton.known.find? ⟨states, symbol⟩ = none ∧
      automaton.pattern.successors states symbol = .error fault ∧
      automaton.advance states symbol = (.error fault, automaton)) := by
  cases hk : automaton.known.find? ⟨states, symbol⟩ with
  | some result => exact Or.inl ⟨result, rfl, by rw [advance, hk]⟩
  | none =>
      cases hs : automaton.pattern.successors states symbol with
      | ok result => exact Or.inr (Or.inl ⟨result, rfl, rfl, by rw [advance, hk, hs]⟩)
      | error fault => exact Or.inr (Or.inr ⟨fault, rfl, rfl, by rw [advance, hk, hs]⟩)

/-- A truthful automaton answers as if it knew nothing. -/
theorem advance_fst (h : automaton.Truthful) (states : StateSet) (symbol : Text) :
    (automaton.advance states symbol).1 = automaton.pattern.successors states symbol := by
  rcases automaton.advance_cases states symbol with
    ⟨result, hk, ha⟩ | ⟨result, -, hs, ha⟩ | ⟨fault, -, hs, ha⟩
  · rw [ha, h _ _ hk]
  · rw [ha, hs]
  · rw [ha, hs]

/-- **One transition** adds at most itself to what is known. -/
theorem advance_learns (automaton : Automaton) (states : StateSet) (symbol : Text) :
    Learns automaton (automaton.advance states symbol).2 := by
  rcases automaton.advance_cases states symbol with
    ⟨result, -, ha⟩ | ⟨result, hk, hs, ha⟩ | ⟨fault, -, -, ha⟩
  · rw [ha]
    exact Learns.refl automaton
  · rw [ha]
    refine ⟨rfl, ?_, ?_⟩
    · -- the transition that is added was not known, so it replaces none
      intro transition found hf
      rw [Transitions.find?_insert, if_neg, hf]
      rintro rfl
      rw [hk] at hf
      cases hf
    · intro ht transition found hf
      rw [Transitions.find?_insert] at hf
      split at hf
      next heq =>
        cases hf
        rw [← heq]
        exact hs
      next => exact ht transition found hf
  · rw [ha]
    exact Learns.refl automaton

/-- A transition that fails changes nothing. -/
theorem advance_of_error (h : (automaton.advance states symbol).1 = .error fault) :
    (automaton.advance states symbol).2 = automaton := by
  rcases automaton.advance_cases states symbol with
    ⟨result, -, ha⟩ | ⟨result, -, -, ha⟩ | ⟨fault, -, -, ha⟩
  · rw [ha]
  · rw [ha] at h
    cases h
  · rw [ha]

/-! ### Along a text -/

theorem follow_learns (automaton : Automaton) (states : StateSet) (text : Text) :
    Learns automaton (automaton.follow states text).2 := by
  induction text generalizing automaton states with
  | nil => exact Learns.refl automaton
  | cons c rest ih =>
      have hl := automaton.advance_learns states [c]
      rw [follow]
      split
      next fault later ha =>
        rw [ha] at hl
        exact hl
      next next later ha =>
        rw [ha] at hl
        split
        · exact hl
        · exact hl.trans (ih later next)

theorem walkFrom_learns (automaton : Automaton) (states : StateSet) (text : Text) :
    Learns automaton (automaton.walkFrom states text).2 := by
  induction text generalizing automaton states with
  | nil => exact Learns.refl automaton
  | cons c rest ih =>
      have hl := automaton.advance_learns states [c]
      rw [walkFrom]
      split
      next fault later ha =>
        rw [ha] at hl
        exact hl
      next next later ha =>
        rw [ha] at hl
        exact hl.trans (ih later next)

theorem follow_fst (h : automaton.Truthful) (states : StateSet) (text : Text) :
    (automaton.follow states text).1 = automaton.pattern.follow states text := by
  induction text generalizing automaton states with
  | nil => rfl
  | cons c rest ih =>
      have hfst := advance_fst h states [c]
      have hl := automaton.advance_learns states [c]
      rw [follow, Parsed.follow, ← hfst]
      cases ha : automaton.advance states [c] with
      | mk outcome later =>
          rw [ha] at hl
          cases outcome with
          | error fault => rfl
          | ok next =>
              cases hn : next.isEmpty with
              | true => simp [hn]
              | false =>
                  have hrest := ih (hl.truthful h) next
                  rw [hl.pattern_eq] at hrest
                  simpa [hn] using hrest

theorem walkFrom_fst (h : automaton.Truthful) (states : StateSet) (text : Text) :
    (automaton.walkFrom states text).1 = automaton.pattern.setsFrom states text := by
  induction text generalizing automaton states with
  | nil => rfl
  | cons c rest ih =>
      have hfst := advance_fst h states [c]
      have hl := automaton.advance_learns states [c]
      rw [walkFrom, Parsed.setsFrom, ← hfst]
      cases ha : automaton.advance states [c] with
      | mk outcome later =>
          rw [ha] at hl
          cases outcome with
          | error fault => rfl
          | ok next =>
              have hrest := ih (hl.truthful h) next
              rw [hl.pattern_eq] at hrest
              exact congrArg (Except.map (next :: ·)) hrest

/-! ### Decisions and walks -/

theorem walk_learns (automaton : Automaton) (text : Text) :
    Learns automaton (automaton.walk text).2 := by
  rw [walk]
  split
  · exact Learns.refl automaton
  next states hc => exact automaton.walkFrom_learns states text

theorem walk_congr (h : automaton.Truthful) (text : Text) :
    (automaton.walk text).1 = ((start automaton.pattern).walk text).1 := by
  rw [walk, walk, start]
  cases automaton.pattern.closure [0] with
  | error fault => rfl
  | ok states =>
      have hfst := (walkFrom_fst h states text).trans
        (walkFrom_fst (start_truthful automaton.pattern) states text).symm
      exact congrArg (Except.map (states :: ·)) hfst

/-- Only the invalid pattern lets a decision keep what is known. -/
theorem accepts_invalid (h : automaton.pattern = .invalid) (source : Source) :
    automaton.accepts source = (.ok false, automaton) := by
  rw [accepts, h]

/-- A decision about a pattern that is valid starts anew. -/
theorem accepts_valid {pattern : Pattern} (h : automaton.pattern = .valid pattern)
    (source : Source) : automaton.accepts source = (start (.valid pattern)).accepts source := by
  rcases automaton with ⟨_, known⟩
  subst h
  rfl

theorem accepts_congr (automaton : Automaton) (source : Source) :
    (automaton.accepts source).1 = ((start automaton.pattern).accepts source).1 := by
  cases h : automaton.pattern with
  | invalid => rw [accepts_invalid h, accepts_invalid rfl]
  | valid pattern => rw [accepts_valid h]

theorem start_accepts_learns (parsed : Parsed) (source : Source) :
    Learns (start parsed) ((start parsed).accepts source).2 := by
  cases parsed with
  | invalid => exact Learns.refl _
  | valid pattern =>
      rw [accepts]
      simp only [start]
      split
      · exact Learns.refl _
      · exact Learns.refl _
      · exact follow_learns _ _ _

theorem accepts_pattern (automaton : Automaton) (source : Source) :
    (automaton.accepts source).2.pattern = automaton.pattern := by
  cases h : automaton.pattern with
  | invalid => rw [accepts_invalid h, h]
  | valid pattern =>
      rw [accepts_valid h]
      exact (start_accepts_learns (.valid pattern) source).pattern_eq

theorem accepts_truthful (h : automaton.Truthful) (source : Source) :
    (automaton.accepts source).2.Truthful := by
  cases hp : automaton.pattern with
  | invalid =>
      rw [accepts_invalid hp]
      exact h
  | valid pattern =>
      rw [accepts_valid hp]
      exact (start_accepts_learns (.valid pattern) source).truthful (start_truthful _)

/-! ### One request -/

/-- **One request** that is no decision takes nothing away from what is known. -/
theorem step_learns (hr : ∀ source, request ≠ .accepts source) :
    Learns automaton (automaton.step request).2 := by
  cases request with
  | accepts source => exact absurd rfl (hr source)
  | advance states symbol => exact automaton.advance_learns states symbol
  | walk text => exact automaton.walk_learns text
  | final => exact Learns.refl automaton
  | containsFinal states => exact Learns.refl automaton
  | closure states => exact Learns.refl automaton
  | known => exact Learns.refl automaton

theorem step_pattern (automaton : Automaton) (request : Request) :
    (automaton.step request).2.pattern = automaton.pattern := by
  by_cases hr : ∃ source, request = .accepts source
  · obtain ⟨source, rfl⟩ := hr
    exact automaton.accepts_pattern source
  · exact (step_learns fun source hs => hr ⟨source, hs⟩).pattern_eq

theorem step_truthful (h : automaton.Truthful) (request : Request) :
    (automaton.step request).2.Truthful := by
  by_cases hr : ∃ source, request = .accepts source
  · obtain ⟨source, rfl⟩ := hr
    exact accepts_truthful h source
  · exact (step_learns fun source hs => hr ⟨source, hs⟩).truthful h

/-- A truthful automaton answers every request like a new one, but for the request to show what is
known. -/
theorem step_congr (h : automaton.Truthful) (hr : request ≠ .known) :
    (automaton.step request).1 = ((start automaton.pattern).step request).1 := by
  cases request with
  | known => exact absurd rfl hr
  | advance states symbol =>
      have hfst := (advance_fst h states symbol).trans
        (advance_fst (start_truthful automaton.pattern) states symbol).symm
      exact congrArg
        (fun answer => (answer.mapError (automaton.pattern.blame states.toList)).map Reply.states)
        hfst
  | accepts source => exact congrArg (Except.map Reply.decision) (automaton.accepts_congr source)
  | walk text => exact congrArg (Except.map Reply.walk) (walk_congr h text)
  | final => rfl
  | containsFinal states => rfl
  | closure states => rfl

/-! ### Requests in a row -/

/-- The automaton after the requests, met or not. -/
def after (automaton : Automaton) (requests : List Request) : Automaton :=
  requests.foldl (fun current request => (current.step request).2) automaton

@[simp] theorem after_nil (automaton : Automaton) : automaton.after [] = automaton := rfl

@[simp] theorem after_cons (automaton : Automaton) (request : Request) (requests : List Request) :
    automaton.after (request :: requests) = (automaton.step request).2.after requests := rfl

theorem after_pattern (automaton : Automaton) (requests : List Request) :
    (automaton.after requests).pattern = automaton.pattern := by
  induction requests generalizing automaton with
  | nil => rfl
  | cons request rest ih => rw [after_cons, ih, step_pattern]

/-- **Every state that can be reached** from a truthful one is truthful. -/
theorem after_truthful (h : automaton.Truthful) (requests : List Request) :
    (automaton.after requests).Truthful := by
  induction requests generalizing automaton with
  | nil => exact h
  | cons request rest ih => exact ih (step_truthful h request)

/-- Requests that are no decisions take nothing away from what is known. -/
theorem after_learns (hr : ∀ source, .accepts source ∉ requests) :
    Learns automaton (automaton.after requests) := by
  induction requests generalizing automaton with
  | nil => exact Learns.refl automaton
  | cons request rest ih =>
      have hstep : Learns automaton (automaton.step request).2 := by
        refine step_learns fun source hs => hr source ?_
        rw [hs]
        exact List.mem_cons_self
      exact hstep.trans (ih fun source hs => hr source (List.mem_cons_of_mem request hs))

/-- Each answer of a run is the answer of the automaton after the requests before it. -/
theorem getElem?_run (automaton : Automaton) (requests : List Request) (i : Nat) :
    (automaton.run requests)[i]? =
      requests[i]?.map fun request => (automaton.after (requests.take i)).step request := by
  induction requests generalizing automaton i with
  | nil => rfl
  | cons request rest ih =>
      cases i with
      | zero => rfl
      | succ i => exact ih (automaton.step request).2 i

/-- **The memory cannot be observed.**  For whatever was read and every history of one automaton for
it, requests that could not be met included: what is known is what a new automaton would answer;
each answer of the run, and each further answer, is that of a new automaton; until the next decision
the knowledge only grows; and neither a transition that fails nor a closure changes anything. -/
theorem answers_independent_of_history (parsed : Parsed) (history : List Request) :
    (∀ states symbol result,
      ((start parsed).after history).known.find? ⟨states, symbol⟩ = some result →
        ((start parsed).advance states symbol).1 = .ok result) ∧
    (∀ (i : Nat) request, history[i]? = some request → request ≠ .known →
      ((start parsed).run history)[i]?.map Prod.fst = some ((start parsed).step request).1) ∧
    (∀ request, request ≠ .known →
      (((start parsed).after history).step request).1 = ((start parsed).step request).1) ∧
    (∀ later, (∀ source, .accepts source ∉ later) → ∀ transition result,
      ((start parsed).after history).known.find? transition = some result →
        ((start parsed).after (history ++ later)).known.find? transition = some result) ∧
    (∀ states symbol fault,
      (((start parsed).after history).advance states symbol).1 = .error fault →
        (((start parsed).after history).advance states symbol).2 =
          (start parsed).after history) ∧
    (∀ states, (((start parsed).after history).step (.closure states)).2 =
      (start parsed).after history) := by
  have htruthful : ∀ requests, ((start parsed).after requests).Truthful :=
    after_truthful (start_truthful parsed)
  have hpattern : ∀ requests, ((start parsed).after requests).pattern = parsed :=
    (start parsed).after_pattern
  have hanswer : ∀ requests request, request ≠ .known →
      (((start parsed).after requests).step request).1 = ((start parsed).step request).1 := by
    intro requests request hr
    rw [step_congr (htruthful requests) hr, hpattern]
  refine ⟨?_, ?_, hanswer history, ?_, ?_, ?_⟩
  · intro states symbol result hk
    have hright := htruthful history ⟨states, symbol⟩ result hk
    rw [hpattern] at hright
    rw [advance_fst (start_truthful parsed)]
    exact hright
  · intro i request hi hr
    rw [getElem?_run, hi, Option.map_some, Option.map_some, hanswer (history.take i) request hr]
  · intro later hl transition result hk
    rw [after, List.foldl_append]
    exact (after_learns hl).keeps hk
  · intro states symbol fault hf
    exact advance_of_error hf
  · intro states
    rfl

/-- A history with a transition from a state that the pattern does not have, which fails, a decision
about bytes that are no text, and a walk.  A transition that is known after it is right, and the one
that failed fails again and changes nothing. -/
theorem known_after_failures :
    ∃ reached, reached =
        (start (.valid ⟨[.literal 'a' true, .wildcard true, .literal 'a' false]⟩)).after
          [.advance (.ofList [7]) ['a'], .accepts (.bytes [0xFF]), .walk ['b', 'a']] ∧
      reached.known.find? ⟨.ofList [0, 1, 2], ['b']⟩ = some (.ofList [1, 2]) ∧
      ((start (.valid ⟨[.literal 'a' true, .wildcard true, .literal 'a' false]⟩)).advance
        (.ofList [0, 1, 2]) ['b']).1 = .ok (.ofList [1, 2]) ∧
      reached.advance (.ofList [7]) ['a'] = (.error .outsidePattern, reached) := by
  obtain ⟨hright, -, -, -, hfailed, -⟩ := answers_independent_of_history
    (.valid ⟨[.literal 'a' true, .wildcard true, .literal 'a' false]⟩)
    [.advance (.ofList [7]) ['a'], .accepts (.bytes [0xFF]), .walk ['b', 'a']]
  have hknown : ((start (.valid ⟨[.literal 'a' true, .wildcard true, .literal 'a' false]⟩)).after
      [.advance (.ofList [7]) ['a'], .accepts (.bytes [0xFF]), .walk ['b', 'a']]).known.find?
        ⟨.ofList [0, 1, 2], ['b']⟩ = some (.ofList [1, 2]) := by decide +kernel
  refine ⟨_, rfl, hknown, hright _ _ _ hknown, ?_⟩
  exact Prod.ext rfl (hfailed (.ofList [7]) ['a'] .outsidePattern rfl)

end Automaton

end StarPattern
