/-
**The closure of any list of integers.**

The closure can be asked for whatever integers there are, in any order and more than once.  It fails
if one of them is no state of the pattern, neither counted from the front nor from the back.
Otherwise it holds what can be reached from one of them over repeatable atoms only.  So it depends
on which states are in the list and on nothing else, closing it again adds nothing, and two lists in
a row have the members of both closures.  Walking on from state to state leads to the same set.

Main results:

* `StarPattern.Pattern.closure_eq_ok_iff`, `StarPattern.Pattern.closure_eq_error_iff` — **the
  closure and its failure**;
* `StarPattern.Pattern.walkOn_of_ahead`, `StarPattern.Pattern.closeByWalks_eq` — walks that go from
  state to state;
* `StarPattern.Pattern.closure_exact_on_every_list` — all of it together.
-/
import StarPattern.Automaton.Stepwise
import StarPattern.Proofs.Automaton.Closure

set_option relaxedAutoImplicit false
set_option autoImplicit false

namespace StarPattern

namespace Pattern

variable {pattern : Pattern} {state source middle target : Int} {states first second : List Int}
variable {reached set : StateSet} {ahead : List Atom} {fault : Fault}

/-! ### Indices from the back, and integers that are no states -/

/-- A negative index counts from behind the last atom. -/
theorem get_of_neg (hlow : -(pattern.length : Int) ≤ state) (hneg : state < 0) :
    pattern.get state = pattern.get (pattern.length + state) := by
  obtain ⟨offset, rfl⟩ : ∃ offset : Nat, state = (offset : Int) - pattern.length :=
    ⟨(pattern.length + state).toNat, by omega⟩
  have hlt : offset < pattern.length := by omega
  have hfront : (pattern.length : Int) + ((offset : Int) - pattern.length) = offset := by omega
  rw [get_sub_length hlt, hfront, eq_comm, get_natCast_eq_ok_iff]
  exact List.getElem?_eq_getElem hlt

theorem offset?_of_not_isState (h : ¬ pattern.IsState state) : pattern.offset? state = none := by
  rw [IsState] at h
  rw [offset?]
  split
  · rw [if_neg (by omega)]
  · rw [if_neg (by omega)]

theorem get_of_not_isState (h : ¬ pattern.IsState state) :
    pattern.get state = .error .outsidePattern := by
  rw [get, offset?_of_not_isState h, Option.bind_none]

theorem ahead?_of_not_isState (h : ¬ pattern.IsState state) : pattern.ahead? state = none := by
  rw [ahead?, offset?_of_not_isState h, Option.map_none]

theorem not_isState_iff :
    ¬ pattern.IsState state ↔ state < -(pattern.length : Int) ∨ (pattern.length : Int) < state := by
  rw [IsState]
  omega

theorem all_isState_or (pattern : Pattern) (states : List Int) :
    (∀ state ∈ states, pattern.IsState state) ∨ ∃ state ∈ states, ¬ pattern.IsState state := by
  by_cases h : ∃ state ∈ states, ¬ pattern.IsState state
  · exact Or.inr h
  · exact Or.inl fun state hmem => Classical.not_not.1 fun hn => h ⟨state, hmem, hn⟩

theorem isState_final (pattern : Pattern) : pattern.IsState pattern.final := by
  rw [IsState, final]
  omega

/-! ### The closure and its failure -/

theorem closureFrom_of_not_isState (h : ∃ state ∈ states, ¬ pattern.IsState state) :
    pattern.closureFrom reached states = .error .outsidePattern := by
  induction states generalizing reached with
  | nil => simp at h
  | cons state rest ih =>
      rw [closureFrom]
      by_cases hs : pattern.IsState state
      · -- the walk from this state is made, and one of the later states is to blame
        obtain ⟨ahead, hahead, -⟩ := exists_ahead hs
        rw [hahead]
        simp only [List.mem_cons, exists_eq_or_imp] at h
        exact ih (h.resolve_left (not_not_intro hs))
      · rw [ahead?_of_not_isState hs]

/-- **The closure** is the set of what can be reached from one of the states without reading. -/
theorem closure_eq_ok_iff :
    pattern.closure states = .ok set ↔
      (∀ state ∈ states, pattern.IsState state) ∧
        ∀ target, target ∈ set ↔ ∃ state ∈ states, pattern.Passes state target := by
  constructor
  · intro h
    rcases pattern.all_isState_or states with hs | hn
    · obtain ⟨found, hfound, hmem⟩ := closure_of_isState hs
      cases h.symm.trans hfound
      exact ⟨hs, hmem⟩
    · rw [closure, closureFrom_of_not_isState hn] at h
      cases h
  · rintro ⟨hs, hset⟩
    obtain ⟨found, hfound, hmem⟩ := closure_of_isState hs
    obtain rfl : found = set := StateSet.ext fun target => (hmem target).trans (hset target).symm
    exact hfound

/-- **The failure** of the closure: one of the integers is no state. -/
theorem closure_eq_error_iff :
    pattern.closure states = .error fault ↔
      fault = .outsidePattern ∧ ∃ state ∈ states, ¬ pattern.IsState state := by
  rcases pattern.all_isState_or states with hs | hn
  · obtain ⟨set, hset, -⟩ := closure_of_isState hs
    have hnone : ¬ ∃ state ∈ states, ¬ pattern.IsState state :=
      fun ⟨state, hmem, hn⟩ => hn (hs state hmem)
    simp only [hset, hnone, and_false, reduceCtorEq]
  · rw [closure, closureFrom_of_not_isState hn, Except.error.injEq, and_iff_left hn, eq_comm]

/-- Only the members of the list count. -/
theorem closure_congr (h : ∀ state, state ∈ first ↔ state ∈ second) :
    pattern.closure first = pattern.closure second := by
  cases hs : pattern.closure second with
  | ok set =>
      obtain ⟨hstates, hmem⟩ := closure_eq_ok_iff.1 hs
      simp only [← h] at hstates hmem
      exact closure_eq_ok_iff.2 ⟨hstates, hmem⟩
  | error fault =>
      obtain ⟨hfault, hstates⟩ := closure_eq_error_iff.1 hs
      simp only [← h] at hstates
      exact closure_eq_error_iff.2 ⟨hfault, hstates⟩

theorem Passes.trans (h : pattern.Passes source middle) (h' : pattern.Passes middle target) :
    pattern.Passes source target := by
  refine ⟨Int.le_trans h.1 h'.1, fun state hlow hhigh => ?_⟩
  by_cases hm : state < middle
  · exact h.2 state hlow hm
  · exact h'.2 state (by omega) hhigh

/-- **Closing again** adds nothing. -/
theorem closure_of_closure (h : pattern.closure states = .ok set)
    (hs : ∀ state, state ∈ first ↔ state ∈ set) : pattern.closure first = .ok set := by
  obtain ⟨hstates, hmem⟩ := closure_eq_ok_iff.1 h
  refine closure_eq_ok_iff.2 ⟨fun state hf => ?_, fun target => ?_⟩
  · obtain ⟨source, hsource, hp⟩ := (hmem state).1 ((hs state).1 hf)
    exact hp.isState (hstates source hsource)
  · simp only [hs]
    constructor
    · intro ht
      exact ⟨target, ht, Passes.refl pattern target⟩
    · rintro ⟨middle, hm, hp⟩
      obtain ⟨source, hsource, hp'⟩ := (hmem middle).1 hm
      exact (hmem target).2 ⟨source, hsource, hp'.trans hp⟩

/-- **Two lists in a row** have the members of both closures. -/
theorem closure_append {one two : StateSet} (hf : pattern.closure first = .ok one)
    (hs : pattern.closure second = .ok two) :
    pattern.closure (first ++ second) = .ok (one.insertAll two.toList) := by
  obtain ⟨hfirst, hone⟩ := closure_eq_ok_iff.1 hf
  obtain ⟨hsecond, htwo⟩ := closure_eq_ok_iff.1 hs
  refine closure_eq_ok_iff.2 ⟨List.forall_mem_append.2 ⟨hfirst, hsecond⟩, fun target => ?_⟩
  rw [StateSet.mem_insertAll, ← StateSet.mem_def, hone, htwo, or_comm]
  simp only [List.mem_append, or_and_right, exists_or]

/-! ### Walks from state to state -/

/-- States that a walk has left behind cannot stop it. -/
theorem passed_insert (h : source < state) :
    passed (reached.insert source) ahead state = passed reached ahead state := by
  have hne : state ≠ source := Int.ne_of_gt h
  induction ahead generalizing state with
  | nil => simp [passed, hne]
  | cons atom rest ih =>
      have hnext : source < state + 1 := by omega
      simp [passed, hne, ih hnext (Int.ne_of_gt hnext)]

theorem insertAll_insert (states : List Int) :
    (reached.insert state).insertAll states = reached.insertAll (state :: states) := by
  refine StateSet.ext fun target => ?_
  simp only [StateSet.mem_insertAll, StateSet.mem_insert, List.mem_cons]
  rw [or_left_comm, or_assoc]

/-- **A walk from state to state** reaches the states that are passed with the same atoms ahead. -/
theorem walkOn_of_ahead (ha : pattern.Ahead ahead state) :
    pattern.walkOn reached state = .ok (reached.insertAll (passed reached ahead state)) := by
  induction ahead generalizing reached state with
  | nil =>
      obtain rfl : state = pattern.final := ha
      rw [passed]
      by_cases hs : pattern.final ∈ reached
      · rw [walkOn_of_mem hs, if_pos hs]
        rfl
      · rw [walkOn_final hs, if_neg hs]
        rfl
  | cons atom rest ih =>
      obtain ⟨hg, hrest⟩ := ha
      rw [passed]
      by_cases hs : state ∈ reached
      · rw [walkOn_of_mem hs, if_pos hs]
        rfl
      · rw [walkOn_of_get hs hg, if_neg hs]
        by_cases hr : atom.repeatable = true
        · rw [if_pos hr, if_pos hr, ih hrest, passed_insert (by omega), insertAll_insert]
        · rw [if_neg hr, if_neg hr]
          rfl

theorem foldlM_walkOn (hc : pattern.Closed reached)
    (hr : ∀ state ∈ reached, pattern.IsState state) :
    states.foldlM pattern.walkOn reached = pattern.closureFrom reached states := by
  induction states generalizing reached with
  | nil => rfl
  | cons state rest ih =>
      rw [List.foldlM_cons, closureFrom]
      by_cases hs : pattern.IsState state
      · obtain ⟨ahead, hahead, ha⟩ := exists_ahead hs
        rw [hahead, walkOn_of_ahead ha]
        refine ih (hc.insertAll_passed ha) fun target ht => ?_
        rcases (mem_insertAll_passed_iff hc ha).1 ht with hp | ht
        · exact hp.isState hs
        · exact hr target ht
      · -- only states have been reached, so the walk gets as far as looking up the atom
        have hnew : state ∉ reached := fun h => hs (hr state h)
        have hfinal : state ≠ pattern.final := fun h => hs (h ▸ pattern.isState_final)
        rw [ahead?_of_not_isState hs, walkOn_of_error hnew hfinal (get_of_not_isState hs)]
        rfl

/-- **Walks from state to state** lead to the closure. -/
theorem closeByWalks_eq (pattern : Pattern) (states : List Int) :
    pattern.closeByWalks states = pattern.closure states :=
  foldlM_walkOn pattern.closed_empty fun state h => absurd h (StateSet.not_mem_empty state)

/-! ### Every list of integers -/

theorem passes_iff_le (hs : pattern.IsState source) :
    pattern.Passes source target ↔
      target ≤ pattern.length ∧ source ≤ target ∧
        ∀ index, source ≤ index → index < target →
          ∃ atom, pattern.get index = .ok atom ∧ atom.repeatable = true :=
  ⟨fun h => ⟨(h.isState hs).2, h⟩, fun h => h.2⟩

/-- **The closure of every list of integers.**  For every pattern, with abstract atoms or without,
the atoms are looked up by their index from the front, and a negative index stands for the one that
is greater by the length.  Whatever integers are in a list, in any order and more than once, walks
from state to state come to an end and lead to the closure of the list.  It fails exactly if one of
the integers is below minus the length or above the length.  Otherwise it holds the integers up to
the length that can be reached from one in the list over repeatable atoms only.  So lists with the
same members have the same closure, which holds these members; closing it again, in whatever order,
adds nothing; and the closure of two lists in a row is the union of their closures. -/
theorem closure_exact_on_every_list (pattern : Pattern) :
    (∀ (n : Nat) atom, pattern.get n = .ok atom ↔ pattern.atoms[n]? = some atom) ∧
    (∀ index : Int, -(pattern.length : Int) ≤ index → index < 0 →
      pattern.get index = pattern.get (pattern.length + index)) ∧
    (∀ states, (Parsed.valid pattern).closure states = pattern.closure states ∧
      pattern.closeByWalks states = pattern.closure states) ∧
    (∀ states fault, pattern.closure states = .error fault ↔
      fault = .outsidePattern ∧
        ∃ state ∈ states, state < -(pattern.length : Int) ∨ (pattern.length : Int) < state) ∧
    (∀ states, (∀ state ∈ states, -(pattern.length : Int) ≤ state ∧ state ≤ pattern.length) →
      ∃ set, pattern.closure states = .ok set ∧
        ∀ target, target ∈ set ↔
          target ≤ pattern.length ∧ ∃ state ∈ states, state ≤ target ∧
            ∀ index, state ≤ index → index < target →
              ∃ atom, pattern.get index = .ok atom ∧ atom.repeatable = true) ∧
    (∀ first second, (∀ state, state ∈ first ↔ state ∈ second) →
      pattern.closure first = pattern.closure second) ∧
    (∀ states set, pattern.closure states = .ok set →
      (∀ state ∈ states, state ∈ set) ∧
      ∀ members, (∀ state, state ∈ members ↔ state ∈ set) →
        pattern.closure members = .ok set) ∧
    (∀ first second one two, pattern.closure first = .ok one →
      pattern.closure second = .ok two →
      ∃ both, pattern.closure (first ++ second) = .ok both ∧
        ∀ state, state ∈ both ↔ state ∈ one ∨ state ∈ two) := by
  refine ⟨fun n atom => get_natCast_eq_ok_iff, fun index hlow hneg => get_of_neg hlow hneg,
    fun states => ⟨Parsed.closure_valid pattern states, pattern.closeByWalks_eq states⟩,
    ?_, ?_, fun first second h => closure_congr h, ?_, ?_⟩
  · intro states fault
    simp only [closure_eq_error_iff, not_isState_iff]
  · intro states hs
    obtain ⟨set, hset, hmem⟩ := closure_of_isState hs
    refine ⟨set, hset, fun target => ?_⟩
    rw [hmem]
    constructor
    · rintro ⟨state, hstate, hp⟩
      obtain ⟨hle, hreach⟩ := (passes_iff_le (hs state hstate)).1 hp
      exact ⟨hle, state, hstate, hreach⟩
    · rintro ⟨hle, state, hstate, hreach⟩
      exact ⟨state, hstate, (passes_iff_le (hs state hstate)).2 ⟨hle, hreach⟩⟩
  · intro states set hset
    refine ⟨fun state hstate => ?_, fun members hm => closure_of_closure hset hm⟩
    exact ((closure_eq_ok_iff.1 hset).2 state).2 ⟨state, hstate, Passes.refl pattern state⟩
  · intro first second one two hone htwo
    refine ⟨_, closure_append hone htwo, fun state => ?_⟩
    rw [StateSet.mem_insertAll, ← StateSet.mem_def, or_comm]

/-- The walk from the last atom, counted from the back, goes on at the front and stops before an
abstract atom; the states it reaches can be listed in any order.  One integer beyond the pattern is
enough for a failure. -/
theorem closure_around_the_end :
    ∃ set, closure ⟨[.literal 'a' true, ⟨.abstract, false⟩, .wildcard true]⟩ [-1, -1] = .ok set ∧
      1 ∈ set ∧ 2 ∉ set ∧
      closure ⟨[.literal 'a' true, ⟨.abstract, false⟩, .wildcard true]⟩ [1, -1, 0] = .ok set ∧
      closure ⟨[.literal 'a' true, ⟨.abstract, false⟩, .wildcard true]⟩ [-1, 4] =
        .error .outsidePattern := by
  obtain ⟨-, -, -, hfails, hexact, -, hagain, -⟩ := closure_exact_on_every_list
    ⟨[.literal 'a' true, ⟨.abstract, false⟩, .wildcard true]⟩
  obtain ⟨set, hset, hmem⟩ := hexact [-1, -1] (by decide)
  obtain rfl : StateSet.ofList [-1, 0, 1] = set := Except.ok.inj hset
  refine ⟨_, hset, by decide, fun htwo => ?_, ?_, ?_⟩
  · -- between the last atom from the back and the state there is the abstract atom
    obtain ⟨-, state, hstate, -, hreach⟩ := (hmem 2).1 htwo
    obtain rfl : state = -1 := by simpa using hstate
    obtain ⟨atom, hget, hrepeatable⟩ := hreach 1 (by decide) (by decide)
    cases hget
    cases hrepeatable
  · refine (hagain _ _ hset).2 [1, -1, 0] fun state => ?_
    rw [StateSet.mem_ofList]
    simp only [List.mem_cons, List.not_mem_nil, or_false]
    omega
  · exact (hfails [-1, 4] .outsidePattern).2 ⟨rfl, 4, by decide, by decide⟩

end Pattern

end StarPattern
