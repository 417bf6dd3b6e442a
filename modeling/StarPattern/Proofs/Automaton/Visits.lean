/-
**What is known after a decision.**

A decision about a pattern that is valid starts without any knowledge and follows the text.  So what
is known after it is what this text has led through: the transition from each set along the text
under the character after it, up to the first set without states, and nothing else.  A transition
that is met again is kept once, and one that leads to no state is kept too, as the last.  A source
that holds no text is found out only after everything has been forgotten, and the invalid pattern
decides before anything is.

Main definitions:

* `StarPattern.Parsed.Visits` — the transitions through which a text leads;
* `StarPattern.Parsed.LastPlace` — how far a text leads.

Main results:

* `StarPattern.Automaton.advance_known`, `StarPattern.Automaton.follow_known` — what is known after
  one transition, and **after following a text**;
* `StarPattern.Parsed.visits_iff`, `StarPattern.Parsed.visits_iff_lt_lastPlace` — the transitions of
  a text by their places in it;
* `StarPattern.Automaton.known_after_accepts` — **what is known after a decision**.
-/
import StarPattern.Proofs.Agreement
import StarPattern.Proofs.Automaton.ClosureLaws

set_option relaxedAutoImplicit false
set_option autoImplicit false

namespace StarPattern

namespace Parsed

variable {parsed : Parsed} {states next result : StateSet} {c : Char} {rest text : Text}
variable {transition : Transition} {sets : List StateSet} {fault : Fault}

/-! ### The transitions of a text -/

/-- From the set of states the text leads through the transition to the result.  It leads on only
from a set in which there are states. -/
inductive Visits (parsed : Parsed) : StateSet → Text → Transition → StateSet → Prop
  | first {states next : StateSet} {c : Char} {rest : Text} :
      parsed.successors states [c] = .ok next →
      Visits parsed states (c :: rest) ⟨states, [c]⟩ next
  | later {states next result : StateSet} {c : Char} {rest : Text} {transition : Transition} :
      parsed.successors states [c] = .ok next → next ≠ ∅ →
      Visits parsed next rest transition result →
      Visits parsed states (c :: rest) transition result

theorem not_visits_nil : ¬ parsed.Visits states [] transition result := by
  intro h
  cases h

theorem visits_cons_iff (hs : parsed.successors states [c] = .ok next) :
    parsed.Visits states (c :: rest) transition result ↔
      (transition = ⟨states, [c]⟩ ∧ result = next) ∨
        (next ≠ ∅ ∧ parsed.Visits next rest transition result) := by
  constructor
  · intro h
    cases h with
    | first hs' =>
        cases hs.symm.trans hs'
        exact Or.inl ⟨rfl, rfl⟩
    | later hs' hne h =>
        cases hs.symm.trans hs'
        exact Or.inr ⟨hne, h⟩
  · intro h
    rcases h with ⟨rfl, rfl⟩ | ⟨hne, h⟩
    · exact Visits.first hs
    · exact Visits.later hs hne h

theorem not_visits_of_error (hs : parsed.successors states [c] = .error fault) :
    ¬ parsed.Visits states (c :: rest) transition result := by
  intro h
  cases h with
  | first hs' => cases hs.symm.trans hs'
  | later hs' => cases hs.symm.trans hs'

/-! ### The places of the transitions -/

theorem setsFrom_cons_eq_ok_iff :
    parsed.setsFrom states (c :: rest) = .ok sets ↔
      ∃ next later, parsed.successors states [c] = .ok next ∧
        parsed.setsFrom next rest = .ok later ∧ sets = next :: later := by
  rw [setsFrom]
  cases parsed.successors states [c] with
  | error fault => simp
  | ok next =>
      cases hl : parsed.setsFrom next rest with
      | error fault => simp [Except.map, hl]
      | ok later => simp [Except.map, hl, eq_comm]

/-- Each set but the first comes from the one before it under the character between them. -/
theorem successors_of_setsFrom (h : parsed.setsFrom states text = .ok sets) {j : Nat} {c : Char}
    {before : StateSet} (hb : (states :: sets)[j]? = some before) (hc : text[j]? = some c) :
    ∃ after, sets[j]? = some after ∧ parsed.successors before [c] = .ok after := by
  induction text generalizing states sets j with
  | nil => simp at hc
  | cons d rest ih =>
      obtain ⟨next, later, hn, hl, rfl⟩ := setsFrom_cons_eq_ok_iff.1 h
      cases j with
      | zero =>
          obtain rfl : states = before := by simpa using hb
          obtain rfl : d = c := by simpa using hc
          exact ⟨next, rfl, hn⟩
      | succ j => exact ih hl hb hc

/-- **The places** of the transitions: a text leads through one at each of its characters, as long
as there are states. -/
theorem visits_iff (h : parsed.setsFrom states text = .ok sets) :
    parsed.Visits states text transition result ↔
      ∃ (j : Nat) (c : Char), text[j]? = some c ∧ transition.symbol = [c] ∧
        (states :: sets)[j]? = some transition.states ∧ sets[j]? = some result ∧
        ∀ i < j, sets[i]? ≠ some ∅ := by
  induction text generalizing states sets with
  | nil => simp [not_visits_nil]
  | cons d rest ih =>
      obtain ⟨next, later, hn, hl, rfl⟩ := setsFrom_cons_eq_ok_iff.1 h
      rw [visits_cons_iff hn, ih hl]
      constructor
      · intro hv
        rcases hv with ⟨rfl, rfl⟩ | ⟨hne, j, c, hc, hsymbol, hbefore, hafter, hall⟩
        · exact ⟨0, d, rfl, rfl, rfl, rfl, fun i hi => absurd hi (Nat.not_lt_zero i)⟩
        · refine ⟨j + 1, c, hc, hsymbol, hbefore, hafter, fun i hi => ?_⟩
          cases i with
          | zero => simpa using hne
          | succ i => exact hall i (Nat.lt_of_succ_lt_succ hi)
      · rintro ⟨j, c, hc, hsymbol, hbefore, hafter, hall⟩
        cases j with
        | zero =>
            refine Or.inl ⟨?_, by simpa using hafter.symm⟩
            obtain ⟨before, symbol⟩ := transition
            obtain rfl : states = before := by simpa using hbefore
            obtain rfl : d = c := by simpa using hc
            exact congrArg _ hsymbol
        | succ j =>
            refine Or.inr ⟨by simpa using hall 0 (Nat.succ_pos j), j, c, hc, hsymbol, hbefore,
              hafter, fun i hi => hall (i + 1) (Nat.succ_lt_succ hi)⟩

/-- The number of characters through which a text leads: up to the one after which no state is left
for the first time, or else up to the end. -/
structure LastPlace (sets : List StateSet) (m : Nat) : Prop where
  le_length : m ≤ sets.length
  inhabited (i : Nat) : i + 1 < m → sets[i]? ≠ some ∅
  ends : m = sets.length ∨ ∃ i, m = i + 1 ∧ sets[i]? = some ∅

namespace LastPlace

variable {m j : Nat}

/-- After a set with states the text leads on. -/
theorem cons (hn : next ≠ ∅) (h : LastPlace sets m) : LastPlace (next :: sets) (m + 1) where
  le_length := Nat.succ_le_succ h.le_length
  inhabited i hi := by
    cases i with
    | zero => simpa using hn
    | succ i => exact h.inhabited i (Nat.lt_of_succ_lt_succ hi)
  ends := by
    rcases h.ends with rfl | ⟨i, rfl, hi⟩
    · exact Or.inl rfl
    · exact Or.inr ⟨i + 1, rfl, hi⟩

theorem exists_lastPlace (sets : List StateSet) : ∃ m, LastPlace sets m := by
  induction sets with
  | nil => exact ⟨0, Nat.le_refl 0, fun i hi => absurd hi (Nat.not_lt_zero _), Or.inl rfl⟩
  | cons next later ih =>
      by_cases hn : next = ∅
      · subst hn
        exact ⟨1, by simp, fun i hi => absurd hi (by omega), Or.inr ⟨0, rfl, rfl⟩⟩
      · obtain ⟨m, hm⟩ := ih
        exact ⟨m + 1, hm.cons hn⟩

/-- A text leads through a character where there have been states after all characters before. -/
theorem lt_iff (h : LastPlace sets m) :
    j < m ↔ j < sets.length ∧ ∀ i < j, sets[i]? ≠ some ∅ := by
  constructor
  · intro hj
    exact ⟨Nat.lt_of_lt_of_le hj h.le_length, fun i hi => h.inhabited i (by omega)⟩
  · rintro ⟨hj, hall⟩
    rcases h.ends with rfl | ⟨i, rfl, hi⟩
    · exact hj
    · have hle : ¬ i < j := fun hlt => hall i hlt hi
      omega

end LastPlace

theorem visits_iff_lt_lastPlace {m : Nat} {symbol : Text} {before : StateSet}
    (h : parsed.setsFrom states text = .ok sets) (hm : LastPlace sets m) :
    parsed.Visits states text ⟨before, symbol⟩ result ↔
      ∃ (j : Nat) (c : Char), j < m ∧ text[j]? = some c ∧ symbol = [c] ∧
        (states :: sets)[j]? = some before ∧ sets[j]? = some result := by
  rw [visits_iff h]
  refine exists_congr fun j => exists_congr fun c => ?_
  rw [hm.lt_iff]
  constructor
  · rintro ⟨hc, hsymbol, hbefore, hafter, hall⟩
    exact ⟨⟨(List.getElem?_eq_some_iff.1 hafter).1, hall⟩, hc, hsymbol, hbefore, hafter⟩
  · rintro ⟨⟨-, hall⟩, hc, hsymbol, hbefore, hafter⟩
    exact ⟨hc, hsymbol, hbefore, hafter, hall⟩

end Parsed

namespace Automaton

variable {automaton later : Automaton} {states next result : StateSet} {symbol text : Text}
variable {transition : Transition} {source : Source} {fault : Fault} {pattern : Pattern} {c : Char}

/-! ### What is known after following a text -/

/-- **One transition** that succeeds is known after it, and nothing else is new. -/
theorem advance_known
    (ha : automaton.advance states symbol = (.ok next, later)) :
    later.known.find? transition = some result ↔
      automaton.known.find? transition = some result ∨
        (transition = ⟨states, symbol⟩ ∧ result = next) := by
  rcases automaton.advance_cases states symbol with
    ⟨found, hk, ha'⟩ | ⟨found, hk, -, ha'⟩ | ⟨fault, -, -, ha'⟩
  · -- the transition was known, so nothing is added
    cases ha.symm.trans ha'
    refine ⟨Or.inl, fun hr => ?_⟩
    rcases hr with hr | ⟨rfl, rfl⟩
    · exact hr
    · exact hk
  · cases ha.symm.trans ha'
    rw [Transitions.find?_insert]
    by_cases heq : ⟨states, symbol⟩ = transition
    · subst heq
      rw [if_pos rfl, hk]
      simp [eq_comm]
    · rw [if_neg heq]
      simp [Ne.symm heq]
  · cases ha.symm.trans ha'

theorem advance_size_le (automaton : Automaton) (states : StateSet) (symbol : Text) :
    (automaton.advance states symbol).2.known.size ≤ automaton.known.size + 1 := by
  rcases automaton.advance_cases states symbol with
    ⟨result, -, ha⟩ | ⟨result, -, -, ha⟩ | ⟨fault, -, -, ha⟩
  · rw [ha]
    exact Nat.le_succ _
  · rw [ha]
    exact automaton.known.size_insert_le _ _
  · rw [ha]
    exact Nat.le_succ _

theorem follow_of_error (ha : automaton.advance states [c] = (.error fault, later)) (rest : Text) :
    automaton.follow states (c :: rest) = (.error fault, later) := by
  rw [follow, ha]

/-- The first set without states is the last. -/
theorem follow_of_empty (ha : automaton.advance states [c] = (.ok ∅, later)) (rest : Text) :
    automaton.follow states (c :: rest) = (.ok ∅, later) := by
  rw [follow, ha]
  rfl

theorem follow_of_ne_empty (ha : automaton.advance states [c] = (.ok next, later)) (hn : next ≠ ∅)
    (rest : Text) : automaton.follow states (c :: rest) = later.follow next rest := by
  rw [follow, ha]
  simp only [StateSet.isEmpty_eq_false_iff.2 hn, Bool.false_eq_true, if_false]

/-- **Following a text** adds the transitions through which it leads, and nothing else. -/
theorem follow_known (h : automaton.Truthful) (states : StateSet) (text : Text) :
    (automaton.follow states text).2.known.find? transition = some result ↔
      automaton.known.find? transition = some result ∨
        automaton.pattern.Visits states text transition result := by
  induction text generalizing automaton states with
  | nil => simp [follow, Parsed.not_visits_nil]
  | cons c rest ih =>
      have hfst := advance_fst h states [c]
      have hl := automaton.advance_learns states [c]
      rcases ha : automaton.advance states [c] with ⟨outcome, later⟩
      rw [ha] at hfst hl
      cases outcome with
      | error fault =>
          have hsame := advance_of_error (congrArg Prod.fst ha)
          rw [ha] at hsame
          rw [follow_of_error ha, hsame, or_iff_left (Parsed.not_visits_of_error hfst.symm)]
      | ok next =>
          rw [Parsed.visits_cons_iff hfst.symm, ← or_assoc, ← advance_known ha]
          by_cases hn : next = ∅
          · -- the text is followed no further, and leads through nothing more
            subst hn
            rw [follow_of_empty ha, or_iff_left fun hv => hv.1 rfl]
          · rw [follow_of_ne_empty ha hn, ih (hl.truthful h) next, hl.pattern_eq, and_iff_right hn]

theorem follow_size_le (automaton : Automaton) (states : StateSet) (text : Text) :
    (automaton.follow states text).2.known.size ≤ automaton.known.size + text.length := by
  induction text generalizing automaton states with
  | nil => exact Nat.le_refl _
  | cons c rest ih =>
      have hsize := automaton.advance_size_le states [c]
      rcases ha : automaton.advance states [c] with ⟨outcome, later⟩
      rw [ha] at hsize
      have hlater : later.known.size ≤ automaton.known.size + 1 := hsize
      rw [List.length_cons]
      cases outcome with
      | error fault =>
          rw [follow_of_error ha]
          omega
      | ok next =>
          by_cases hn : next = ∅
          · subst hn
            rw [follow_of_empty ha]
            omega
          · have hrest := ih later next
            rw [follow_of_ne_empty ha hn]
            omega

/-! ### What is known after a decision -/

/-- After a decision the transitions of its text are known, and nothing else. -/
theorem start_accepts_known {first : StateSet} (hf : pattern.closure [0] = .ok first)
    (h : source.toText = .ok text) :
    ((start (.valid pattern)).accepts source).2.known.find? transition = some result ↔
      (Parsed.valid pattern).Visits first text transition result := by
  have hnone : (start (.valid pattern)).known.find? transition = none :=
    Transitions.find?_empty transition
  rw [start_accepts_eq_follow hf h, follow_known (start_truthful _), hnone]
  exact or_iff_right fun hs => by cases hs

theorem start_accepts_size_le {first : StateSet} (hf : pattern.closure [0] = .ok first)
    (h : source.toText = .ok text) :
    ((start (.valid pattern)).accepts source).2.known.size ≤ text.length := by
  have hsize := (start (.valid pattern)).follow_size_le first text
  have hzero : (start (.valid pattern)).known.size = 0 := Transitions.size_empty
  rwa [start_accepts_eq_follow hf h, ← Nat.zero_add text.length, ← hzero]

theorem first_ne_empty {first : StateSet} (hf : pattern.closure [0] = .ok first) : first ≠ ∅ := by
  rintro rfl
  have hzero := (Pattern.closure_eq_ok_iff.1 hf).2 0
  exact StateSet.not_mem_empty 0
    (hzero.2 ⟨0, List.mem_singleton_self 0, Pattern.Passes.refl pattern 0⟩)

/-- **What is known after a decision.**  For every pattern without abstract atoms, every history of
its automaton and every source with a text, there is a decision, and the automaton after it is the
one that a new automaton would be.  Along the text there is a set of states before each character
and one at the end; the first is the closure of the state 0, and each other comes from the one
before it under the character between them.  The last place is the first after which no state is
left, or else the end of the text.  What is known are the transitions at the places before the last
one and no others, so there are at most as many as there are characters, and none of them is from
the set without states.  A source without a text is a fault that leaves nothing known, and the
invalid pattern decides without any change. -/
theorem known_after_accepts :
    (∀ pattern : Pattern, pattern.IsConcrete → ∀ (history : List Request) (source : Source)
        (text : Text), source.toText = .ok text →
      ∃ (first : StateSet) (sets : List StateSet) (m : Nat) (matched : Bool) (reached : Automaton),
        ((start (.valid pattern)).after history).accepts source = (.ok matched, reached) ∧
        (start (.valid pattern)).accepts source = (.ok matched, reached) ∧
        sets.length = text.length + 1 ∧
        pattern.closure [0] = .ok first ∧ sets[0]? = some first ∧
        (∀ (j : Nat) c states, text[j]? = some c → sets[j]? = some states →
          ∃ next, sets[j + 1]? = some next ∧
            (Parsed.valid pattern).successors states [c] = .ok next) ∧
        m ≤ text.length ∧ (∀ j, j + 1 < m → sets[j + 1]? ≠ some ∅) ∧
        (m = text.length ∨ ∃ j, m = j + 1 ∧ sets[j + 1]? = some ∅) ∧
        (∀ states symbol result, reached.known.find? ⟨states, symbol⟩ = some result ↔
          ∃ (j : Nat) (c : Char), j < m ∧ text[j]? = some c ∧ symbol = [c] ∧
            sets[j]? = some states ∧ sets[j + 1]? = some result) ∧
        reached.known.size ≤ text.length ∧
        ∀ symbol, reached.known.find? ⟨∅, symbol⟩ = none) ∧
    (∀ (pattern : Pattern) (history : List Request) (source : Source) (fault : Fault),
      source.toText = .error fault →
      ((start (.valid pattern)).after history).accepts source =
        (.error fault, ⟨.valid pattern, .empty⟩)) ∧
    (∀ (history : List Request) (source : Source),
      ((start .invalid).after history).accepts source =
        (.ok false, (start .invalid).after history)) := by
  refine ⟨fun pattern hc history source text h => ?_, fun pattern history source fault h => ?_,
    fun history source => accepts_invalid (after_pattern _ history) source⟩
  · obtain ⟨first, hfirst, htracks⟩ := pattern.closure_start
    obtain ⟨later, hlater, hlen, -⟩ := htracks.setsFrom hc text
    obtain ⟨m, hm⟩ := Parsed.LastPlace.exists_lastPlace later
    obtain ⟨matched, hmatched, -⟩ := start_accepts_of_toText hc h
    rcases haccepts : (start (.valid pattern)).accepts source with ⟨outcome, reached⟩
    obtain rfl : outcome = .ok matched := by rw [← hmatched, haccepts]
    have hreached : ((start (.valid pattern)).accepts source).2 = reached := by rw [haccepts]
    have hknown : ∀ states symbol result,
        reached.known.find? ⟨states, symbol⟩ = some result ↔
          ∃ (j : Nat) (c : Char), j < m ∧ text[j]? = some c ∧ symbol = [c] ∧
            (first :: later)[j]? = some states ∧ (first :: later)[j + 1]? = some result := by
      intro states symbol result
      rw [← hreached, start_accepts_known hfirst h, Parsed.visits_iff_lt_lastPlace hlater hm]
      rfl
    refine ⟨first, first :: later, m, matched, reached, ?_, rfl, by rw [List.length_cons, hlen],
      hfirst, rfl, ?_, hlen ▸ hm.le_length, hm.inhabited, hlen ▸ hm.ends, hknown, ?_, ?_⟩
    · rw [accepts_valid (after_pattern _ history), haccepts]
    · intro j c states hj hstates
      exact Parsed.successors_of_setsFrom hlater hstates hj
    · rw [← hreached]
      exact start_accepts_size_le hfirst h
    · -- before the last place there are states in every set
      intro symbol
      rw [Option.eq_none_iff_forall_not_mem]
      intro result hresult
      obtain ⟨j, c, hlt, -, -, hbefore, -⟩ := (hknown ∅ symbol result).1 hresult
      cases j with
      | zero => exact first_ne_empty hfirst (Option.some_inj.1 hbefore)
      | succ j => exact hm.inhabited j hlt hbefore
  · rw [accepts_valid (after_pattern _ history), start_accepts_of_error h]
    rfl

/-- Before the decision a walk has made the transition under the last character known.  The text
leads through one transition twice, and after its third character no state is left, so the last
character is not read: its transition is not known any more, and the third one's is. -/
theorem known_after_a_text_that_fails :
    ((start (.valid ⟨[.literal 'a' true, .literal 'b' false]⟩)).after [.walk ['b']]).known.find?
        ⟨.ofList [0, 1], ['b']⟩ = some (.ofList [2]) ∧
      ∃ reached, ((start (.valid ⟨[.literal 'a' true, .literal 'b' false]⟩)).after
          [.walk ['b']]).accepts (.text ['a', 'a', 'x', 'b']) = (.ok false, reached) ∧
        reached.known.find? ⟨.ofList [0, 1], ['b']⟩ = none ∧
        reached.known.find? ⟨.ofList [0, 1], ['x']⟩ = some ∅ := by
  obtain ⟨hvalid, -, -⟩ := known_after_accepts
  obtain ⟨first, sets, m, matched, reached, haccepts, hnew, -, hclosure, hfirst, hnext, hle, hall,
    hlast, hknown, -, -⟩ := hvalid ⟨[.literal 'a' true, .literal 'b' false]⟩ (by decide)
      [.walk ['b']] (.text ['a', 'a', 'x', 'b']) _ rfl
  obtain rfl : false = matched := Except.ok.inj (congrArg Prod.fst hnew)
  obtain rfl : StateSet.ofList [0, 1] = first := Except.ok.inj hclosure
  obtain ⟨_, hone, hsuccessors⟩ := hnext 0 'a' _ rfl hfirst
  obtain rfl : StateSet.ofList [0, 1] = _ := Except.ok.inj hsuccessors
  obtain ⟨_, htwo, hsuccessors⟩ := hnext 1 'a' _ rfl hone
  obtain rfl : StateSet.ofList [0, 1] = _ := Except.ok.inj hsuccessors
  obtain ⟨_, hthree, hsuccessors⟩ := hnext 2 'x' _ rfl htwo
  obtain rfl : ∅ = _ := Except.ok.inj hsuccessors
  -- the third set after the first one is the only one without states
  have hm : m = 3 := by
    have hnot : ¬ 3 < m := fun hlt => hall 2 hlt hthree
    rcases hlast with rfl | ⟨_ | _ | j, rfl, hempty⟩
    · exact absurd (by decide) hnot
    · exact absurd (hone.symm.trans hempty) (by decide)
    · exact absurd (htwo.symm.trans hempty) (by decide)
    · omega
  refine ⟨by decide +kernel, reached, haccepts, ?_, ?_⟩
  · rw [Option.eq_none_iff_forall_not_mem]
    intro result hresult
    obtain ⟨j, c, hlt, hj, hsymbol, -, -⟩ := (hknown _ _ result).1 hresult
    obtain rfl : 'b' = c := by simpa using hsymbol
    rcases j with _ | _ | _ | j
    · simp at hj
    · simp at hj
    · simp at hj
    · omega
  · exact (hknown _ _ _).2 ⟨2, 'x', by omega, rfl, rfl, htwo, hthree⟩

end Automaton

end StarPattern
