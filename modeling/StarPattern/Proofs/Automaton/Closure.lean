/-
**The closure of a list of states, and the moves under a symbol.**

The closure walks on from every state of a list for as long as the atoms ahead are repeatable, and
breaks off where it meets a state that an earlier walk has reached.  Breaking off loses nothing,
because what has been reached is closed after every completed walk: that is the invariant of this
module.

Main definitions:

* `StarPattern.Pattern.FreeAt`, `StarPattern.Pattern.Passes` — the moves without reading;
* `StarPattern.Pattern.Closed` — a set with all that can be reached from it without reading;
* `StarPattern.Pattern.IsState` — the states of a pattern, counted from either end;
* `StarPattern.Pattern.SettledAt` — no atom at any of the states is abstract.

Main results:

* `StarPattern.Pattern.closure_of_isState` — **the closure** of states of the pattern;
* `StarPattern.Pattern.moves_of_isState`, `StarPattern.Pattern.moves_of_not_settledAt` — the moves
  from states of the pattern, and what stands in their way;
* `StarPattern.Parsed.successors_of_isState` — **the states after a symbol**.
-/
import StarPattern.Automaton.Closure

set_option relaxedAutoImplicit false
set_option autoImplicit false

namespace StarPattern

namespace Pattern

variable {pattern : Pattern} {state source target : Int} {states : List Int} {reached : StateSet}
variable {atom : Atom} {ahead : List Atom}

/-! ### Atoms by their index -/

/-- The integer counts a place in the pattern from the front or from the back; the place behind the
last atom is among them. -/
def IsState (pattern : Pattern) (state : Int) : Prop :=
  -(pattern.length : Int) ≤ state ∧ state ≤ pattern.length

theorem get_natCast_eq_ok_iff {n : Nat} :
    pattern.get n = .ok atom ↔ pattern.atoms[n]? = some atom := by
  have hlen : pattern.length = pattern.atoms.length := rfl
  by_cases hn : n ≤ pattern.length
  · have ho : pattern.offset? n = some n := by
      rw [offset?, if_pos (by omega), if_pos (by omega)]
      simp
    rw [get, ho, Option.bind_some]
    cases pattern.atoms[n]? <;> simp
  · have ho : pattern.offset? n = none := by
      rw [offset?, if_pos (by omega), if_neg (by omega)]
    rw [get, ho, Option.bind_none, List.getElem?_eq_none (by omega)]
    simp

/-- An index from the back: `offset` places from the front. -/
theorem get_sub_length {offset : Nat} (ho : offset < pattern.length) :
    pattern.get ((offset : Int) - pattern.length) = .ok pattern.atoms[offset] := by
  have hoff : pattern.offset? ((offset : Int) - pattern.length) = some offset := by
    rw [offset?, if_neg (by omega), if_pos (by omega)]
    congr 1
    omega
  rw [get, hoff, Option.bind_some, List.getElem?_eq_getElem ho]

theorem mem_of_get (h : pattern.get state = .ok atom) : atom ∈ pattern.atoms := by
  rw [get] at h
  split at h
  next found hf =>
    cases h
    obtain ⟨offset, -, ho⟩ := Option.bind_eq_some_iff.1 hf
    exact List.mem_of_getElem? ho
  next => cases h

theorem get_final (pattern : Pattern) : ¬ ∃ atom, pattern.get pattern.final = .ok atom := by
  rintro ⟨atom, h⟩
  have hnone : pattern.atoms[pattern.length]? = none := List.getElem?_eq_none (Nat.le_refl _)
  rw [final, get_natCast_eq_ok_iff, hnone] at h
  cases h

/-! ### What is ahead in a state -/

theorem drop_length (pattern : Pattern) : pattern.atoms.drop pattern.length = [] :=
  List.drop_length

/-- The atoms are those that are met one after another from the state on, up to the final one. -/
def Ahead (pattern : Pattern) : List Atom → Int → Prop
  | [], state => state = pattern.final
  | atom :: rest, state => pattern.get state = .ok atom ∧ pattern.Ahead rest (state + 1)

theorem ahead_drop (pattern : Pattern) (offset : Nat) (ho : offset ≤ pattern.length) :
    pattern.Ahead (pattern.atoms.drop offset) offset := by
  -- from the end of the pattern to its front
  induction hrest : pattern.length - offset generalizing offset with
  | zero =>
      obtain rfl : offset = pattern.length := by omega
      rw [drop_length]
      rfl
  | succ n ih =>
      have hlt : offset < pattern.atoms.length := by
        change offset < pattern.length
        omega
      rw [List.drop_eq_getElem_cons hlt]
      exact ⟨get_natCast_eq_ok_iff.2 (List.getElem?_eq_getElem hlt), ih (offset + 1) hlt (by omega)⟩

/-- From a state that counts from the back the pattern is met once more after its end. -/
theorem ahead_drop_append (pattern : Pattern) (offset : Nat) (ho : offset ≤ pattern.length) :
    pattern.Ahead (pattern.atoms.drop offset ++ pattern.atoms)
      ((offset : Int) - pattern.length) := by
  induction hrest : pattern.length - offset generalizing offset with
  | zero =>
      obtain rfl : offset = pattern.length := by omega
      rw [drop_length, List.nil_append, Int.sub_self]
      exact pattern.ahead_drop 0 (Nat.zero_le _)
  | succ n ih =>
      have hlt : offset < pattern.atoms.length := by
        change offset < pattern.length
        omega
      rw [List.drop_eq_getElem_cons hlt, List.cons_append]
      refine ⟨get_sub_length hlt, ?_⟩
      have hnext := ih (offset + 1) hlt (by omega)
      have hstate : ((offset : Int) - pattern.length) + 1 =
          ((offset + 1 : Nat) : Int) - pattern.length := by omega
      rw [hstate]
      exact hnext

/-- In each of its states it is known what is ahead. -/
theorem exists_ahead (h : pattern.IsState state) :
    ∃ ahead, pattern.ahead? state = some ahead ∧ pattern.Ahead ahead state := by
  obtain ⟨hlow, hhigh⟩ := h
  by_cases hneg : state < 0
  · obtain ⟨offset, rfl⟩ : ∃ offset : Nat, state = (offset : Int) - pattern.length :=
      ⟨(pattern.length + state).toNat, by omega⟩
    refine ⟨_, ?_, pattern.ahead_drop_append offset (by omega)⟩
    rw [ahead?, offset?, if_neg (by omega), if_pos hlow, Option.map_some, if_pos hneg]
    congr 3
    omega
  · obtain ⟨offset, rfl⟩ : ∃ offset : Nat, state = offset := ⟨state.toNat, by omega⟩
    refine ⟨_, ?_, pattern.ahead_drop offset (by omega)⟩
    rw [ahead?, offset?, if_pos (by omega), if_pos hhigh, Option.map_some, if_neg hneg,
      Int.toNat_natCast]

theorem exists_get_of_isState (h : pattern.IsState state) (hf : state ≠ pattern.final) :
    ∃ atom, pattern.get state = .ok atom := by
  obtain ⟨ahead, -, ha⟩ := exists_ahead h
  cases ahead with
  | nil => exact absurd ha hf
  | cons atom rest => exact ⟨atom, ha.1⟩

/-! ### Moves without reading -/

/-- In this state the automaton may move on without reading. -/
def FreeAt (pattern : Pattern) (state : Int) : Prop :=
  ∃ atom, pattern.get state = .ok atom ∧ atom.repeatable = true

/-- The automaton may move from the one state to the other without reading. -/
def Passes (pattern : Pattern) (source target : Int) : Prop :=
  source ≤ target ∧ ∀ state, source ≤ state → state < target → pattern.FreeAt state

theorem freeAt_iff (h : pattern.get state = .ok atom) :
    pattern.FreeAt state ↔ atom.repeatable = true := by
  constructor
  · intro hfree
    obtain ⟨found, hf, hr⟩ := hfree
    cases h.symm.trans hf
    exact hr
  · intro hr
    exact ⟨atom, h, hr⟩

theorem not_freeAt_final (pattern : Pattern) : ¬ pattern.FreeAt pattern.final := by
  rintro ⟨atom, h, -⟩
  exact pattern.get_final ⟨atom, h⟩

theorem Passes.refl (pattern : Pattern) (state : Int) : pattern.Passes state state :=
  ⟨Int.le_refl state, fun between hlow hhigh => absurd hlow (by omega)⟩

theorem Passes.tail (h : pattern.Passes source target) (hf : pattern.FreeAt target) :
    pattern.Passes source (target + 1) := by
  refine ⟨by have := h.1; omega, ?_⟩
  intro state hlow hhigh
  by_cases heq : state = target
  · rw [heq]
    exact hf
  · exact h.2 state hlow (by omega)

theorem passes_of_freeAt (hf : pattern.FreeAt source) :
    pattern.Passes source target ↔ target = source ∨ pattern.Passes (source + 1) target := by
  constructor
  · intro h
    obtain ⟨hle, hall⟩ := h
    by_cases heq : target = source
    · exact Or.inl heq
    · exact Or.inr ⟨by omega, fun state hlow hhigh => hall state (by omega) hhigh⟩
  · intro h
    rcases h with rfl | ⟨hle, hall⟩
    · exact Passes.refl pattern target
    · refine ⟨by omega, ?_⟩
      intro state hlow hhigh
      by_cases heq : state = source
      · rw [heq]
        exact hf
      · exact hall state (by omega) hhigh

theorem passes_of_not_freeAt (hf : ¬ pattern.FreeAt source) :
    pattern.Passes source target ↔ target = source := by
  constructor
  · intro h
    obtain ⟨hle, hall⟩ := h
    by_cases heq : target = source
    · exact heq
    · exact absurd (hall source (Int.le_refl source) (by omega)) hf
  · rintro rfl
    exact Passes.refl pattern target

/-! ### Closed sets -/

/-- The set holds all that can be reached from its members without reading. -/
def Closed (pattern : Pattern) (set : StateSet) : Prop :=
  ∀ state ∈ set, pattern.FreeAt state → state + 1 ∈ set

theorem closed_empty (pattern : Pattern) : pattern.Closed ∅ :=
  fun state h => absurd h (StateSet.not_mem_empty state)

theorem Closed.mem_of_passes (hc : pattern.Closed reached) (hs : source ∈ reached)
    (h : pattern.Passes source target) : target ∈ reached := by
  -- on the length of the way from the source
  induction hn : (target - source).toNat generalizing target with
  | zero =>
      obtain rfl : target = source := by have := h.1; omega
      exact hs
  | succ n ih =>
      have hprev : target - 1 ∈ reached :=
        ih ⟨by omega, fun state hlow hhigh => h.2 state hlow (by omega)⟩ (by omega)
      have hnext := hc (target - 1) hprev (h.2 (target - 1) (by omega) (by omega))
      rwa [Int.sub_add_cancel] at hnext

/-- **A walk** over the atoms ahead adds to a closed set all that can be reached from its state,
though it breaks off at the first state that was reached before. -/
theorem mem_passed_iff (hc : pattern.Closed reached) (ha : pattern.Ahead ahead state) :
    (target ∈ passed reached ahead state ∨ target ∈ reached) ↔
      (pattern.Passes state target ∨ target ∈ reached) := by
  induction ahead generalizing state with
  | nil =>
      rw [passes_of_not_freeAt (by rw [ha]; exact pattern.not_freeAt_final), passed]
      by_cases hs : state ∈ reached
      · rw [if_pos hs]
        constructor
        · exact fun h => Or.inr (h.resolve_left List.not_mem_nil)
        · intro h
          rcases h with rfl | h
          · exact Or.inr hs
          · exact Or.inr h
      · rw [if_neg hs, List.mem_singleton]
  | cons atom rest ih =>
      obtain ⟨hg, hrest⟩ := ha
      rw [passed]
      by_cases hs : state ∈ reached
      · -- the walk breaks off, and what it would still pass has been reached
        rw [if_pos hs]
        constructor
        · exact fun h => Or.inr (h.resolve_left List.not_mem_nil)
        · intro h
          rcases h with h | h
          · exact Or.inr (hc.mem_of_passes hs h)
          · exact Or.inr h
      · rw [if_neg hs]
        cases hr : atom.repeatable with
        | true =>
            rw [if_pos rfl, passes_of_freeAt ((freeAt_iff hg).2 hr), List.mem_cons, or_assoc,
              ih hrest, or_assoc]
        | false =>
            rw [if_neg (by simp), passes_of_not_freeAt (by simp [freeAt_iff hg, hr]),
              List.mem_singleton]

theorem mem_insertAll_passed_iff (hc : pattern.Closed reached) (ha : pattern.Ahead ahead state) :
    target ∈ reached.insertAll (passed reached ahead state) ↔
      pattern.Passes state target ∨ target ∈ reached := by
  rw [StateSet.mem_insertAll, mem_passed_iff hc ha]

/-- A walk ends only where no move without reading leads on. -/
theorem Closed.insertAll_passed (hc : pattern.Closed reached) (ha : pattern.Ahead ahead state) :
    pattern.Closed (reached.insertAll (passed reached ahead state)) := by
  intro target ht hf
  rw [mem_insertAll_passed_iff hc ha] at ht ⊢
  exact ht.imp (fun h => h.tail hf) (fun h => hc target h hf)

/-- What has been reached stays closed after every walk, and at the end it is what can be reached
from one of the states. -/
theorem closureFrom_of_isState (hs : ∀ state ∈ states, pattern.IsState state)
    (hc : pattern.Closed reached) :
    ∃ set, pattern.closureFrom reached states = .ok set ∧ pattern.Closed set ∧
      ∀ target, target ∈ set ↔
        target ∈ reached ∨ ∃ state ∈ states, pattern.Passes state target := by
  induction states generalizing reached with
  | nil => exact ⟨reached, rfl, hc, by simp⟩
  | cons state rest ih =>
      rw [List.forall_mem_cons] at hs
      obtain ⟨ahead, hahead, ha⟩ := exists_ahead hs.1
      obtain ⟨set, hset, hsc, hsm⟩ := ih hs.2 (hc.insertAll_passed ha)
      refine ⟨set, by rw [closureFrom, hahead]; exact hset, hsc, ?_⟩
      intro target
      simp only [hsm, mem_insertAll_passed_iff hc ha, List.mem_cons, exists_eq_or_imp]
      rw [or_assoc, or_left_comm]

/-- **The closure** of states of the pattern is what can be reached from them without reading. -/
theorem closure_of_isState (hs : ∀ state ∈ states, pattern.IsState state) :
    ∃ set, pattern.closure states = .ok set ∧
      ∀ target, target ∈ set ↔ ∃ state ∈ states, pattern.Passes state target := by
  obtain ⟨set, hset, -, hmem⟩ := closureFrom_of_isState hs pattern.closed_empty
  refine ⟨set, hset, ?_⟩
  intro target
  rw [hmem]
  simp

theorem Passes.isState (hs : pattern.IsState source) (h : pattern.Passes source target) :
    pattern.IsState target := by
  refine ⟨by have := hs.1; have := h.1; omega, ?_⟩
  by_cases hle : target ≤ pattern.length
  · exact hle
  · exact absurd (h.2 pattern.length hs.2 (by omega)) pattern.not_freeAt_final

/-! ### Moves under a symbol -/

/-- In the state there is an atom that takes the symbol, and taking it leads to the target before
any move without reading. -/
def Takes (pattern : Pattern) (symbol : Text) (state target : Int) : Prop :=
  ∃ atom, pattern.get state = .ok atom ∧ atom.acceptsText symbol = .ok true ∧
    target = if atom.repeatable then state else state + 1

theorem exists_acceptsText (hc : atom.IsConcrete) (symbol : Text) :
    ∃ taken, atom.acceptsText symbol = .ok taken := by
  rcases atom with ⟨kind, repeatable⟩
  cases kind with
  | abstract => exact absurd rfl hc
  | wildcard => exact ⟨_, rfl⟩
  | literal c => exact ⟨_, rfl⟩

/-- No atom at any of the states is abstract. -/
def SettledAt (pattern : Pattern) (states : List Int) : Prop :=
  ∀ state ∈ states, ∀ atom, pattern.get state = .ok atom → atom.IsConcrete

theorem IsConcrete.settledAt (hc : pattern.IsConcrete) (states : List Int) :
    pattern.SettledAt states :=
  fun _ _ atom hg => hc atom (mem_of_get hg)

theorem settledAt_cons_iff :
    pattern.SettledAt (state :: states) ↔
      (∀ atom, pattern.get state = .ok atom → atom.IsConcrete) ∧ pattern.SettledAt states :=
  List.forall_mem_cons

theorem moves_final (pattern : Pattern) (symbol : Text) (rest : List Int) :
    pattern.moves symbol (pattern.final :: rest) = pattern.moves symbol rest := by
  rw [moves, if_pos rfl]

/-- The moves are made one state after another. -/
theorem moves_cons {symbol : Text} {rest moved : List Int} {taken : Bool}
    (hf : state ≠ pattern.final) (hg : pattern.get state = .ok atom)
    (ht : atom.acceptsText symbol = .ok taken) (hm : pattern.moves symbol rest = .ok moved) :
    pattern.moves symbol (state :: rest) =
      .ok (if taken then (if atom.repeatable then state else state + 1) :: moved else moved) := by
  rw [moves, if_neg hf, hg]
  simp only [bind, Except.bind, ht, hm, pure, Except.pure]

/-- From states of the pattern the automaton moves to the targets of the atoms that take the
symbol. -/
theorem moves_of_isState (hc : pattern.SettledAt states) (symbol : Text)
    (hs : ∀ state ∈ states, pattern.IsState state) :
    ∃ moved, pattern.moves symbol states = .ok moved ∧
      ∀ target, target ∈ moved ↔ ∃ state ∈ states, pattern.Takes symbol state target := by
  induction states with
  | nil => exact ⟨[], rfl, by simp⟩
  | cons state rest ih =>
      rw [List.forall_mem_cons] at hs
      rw [settledAt_cons_iff] at hc
      obtain ⟨moved, hm, hmem⟩ := ih hc.2 hs.2
      by_cases hf : state = pattern.final
      · refine ⟨moved, by rw [hf, moves_final, hm], ?_⟩
        intro target
        have hnone : ¬ pattern.Takes symbol state target := by
          rintro ⟨atom, hg, -⟩
          exact pattern.get_final ⟨atom, hf ▸ hg⟩
        simp only [hmem, List.mem_cons, exists_eq_or_imp, hnone, false_or]
      · obtain ⟨atom, hg⟩ := exists_get_of_isState hs.1 hf
        obtain ⟨taken, ht⟩ := exists_acceptsText (hc.1 atom hg) symbol
        refine ⟨_, moves_cons hf hg ht hm, ?_⟩
        intro target
        have hone : pattern.Takes symbol state target ↔
            taken = true ∧ target = if atom.repeatable then state else state + 1 := by
          constructor
          · intro h
            obtain ⟨found, hfound, hacc, htarget⟩ := h
            cases hg.symm.trans hfound
            cases ht.symm.trans hacc
            exact ⟨rfl, htarget⟩
          · intro h
            obtain ⟨rfl, htarget⟩ := h
            exact ⟨atom, hg, ht, htarget⟩
        simp only [List.mem_cons, exists_eq_or_imp, hone, ← hmem]
        cases taken <;> simp

/-- **An abstract atom** at one of the states cannot decide, so there are no moves. -/
theorem moves_of_not_settledAt (hc : ¬ pattern.SettledAt states) (symbol : Text)
    (hs : ∀ state ∈ states, pattern.IsState state) :
    pattern.moves symbol states = .error .undecided := by
  induction states with
  | nil => exact absurd (List.forall_mem_nil _) hc
  | cons state rest ih =>
      rw [List.forall_mem_cons] at hs
      rw [settledAt_cons_iff, not_and] at hc
      by_cases hf : state = pattern.final
      · have hnone : ∀ atom, pattern.get state = .ok atom → atom.IsConcrete :=
          fun atom hg => absurd ⟨atom, hf ▸ hg⟩ pattern.get_final
        rw [hf, moves_final, ih (hc hnone) hs.2]
      · obtain ⟨atom, hg⟩ := exists_get_of_isState hs.1 hf
        rw [moves, if_neg hf, hg]
        simp only [bind, Except.bind]
        by_cases ha : atom.IsConcrete
        · -- the abstract atom is at a later state
          have hone : ∀ found, pattern.get state = .ok found → found.IsConcrete := by
            intro found hfound
            cases hg.symm.trans hfound
            exact ha
          obtain ⟨taken, ht⟩ := exists_acceptsText ha symbol
          simp only [ht, ih (hc hone) hs.2]
        · simp only [Atom.acceptsText_of_abstract ha symbol]

theorem Takes.isState {symbol : Text} (hs : pattern.IsState state)
    (h : pattern.Takes symbol state target) : pattern.IsState target := by
  obtain ⟨atom, hg, -, rfl⟩ := h
  have hne : state ≠ pattern.final := by
    rintro rfl
    exact pattern.get_final ⟨atom, hg⟩
  have hlt : state < pattern.length := by
    have := hs.2
    rw [final] at hne
    omega
  have := hs.1
  split
  · exact hs
  · exact ⟨by omega, by omega⟩

end Pattern

namespace Parsed

theorem closure_valid (pattern : Pattern) (states : List Int) :
    closure (.valid pattern) states = pattern.closure states := by
  cases states <;> rfl

theorem moves_valid (pattern : Pattern) (symbol : Text) (states : List Int) :
    moves symbol (.valid pattern) states = pattern.moves symbol states := by
  cases states <;> rfl

/-- **The states after a symbol** are those that can be reached without reading after an atom at one
of the states has taken the symbol. -/
theorem successors_of_isState {pattern : Pattern} {states : StateSet}
    (hc : pattern.SettledAt states.toList) (symbol : Text)
    (hs : ∀ state ∈ states, pattern.IsState state) :
    ∃ next, successors (.valid pattern) states symbol = .ok next ∧
      ∀ target, target ∈ next ↔
        ∃ state ∈ states, ∃ moved, pattern.Takes symbol state moved ∧
          pattern.Passes moved target := by
  obtain ⟨moved, hm, hmem⟩ := Pattern.moves_of_isState hc symbol hs
  have hmoved : ∀ state ∈ moved, pattern.IsState state := by
    intro target ht
    obtain ⟨state, hstate, htakes⟩ := (hmem target).1 ht
    exact htakes.isState (hs state hstate)
  obtain ⟨next, hn, hnext⟩ := Pattern.closure_of_isState hmoved
  refine ⟨next, ?_, ?_⟩
  · rw [successors, moves_valid, hm]
    exact (closure_valid pattern moved).trans hn
  · intro target
    rw [hnext]
    constructor
    · intro h
      obtain ⟨state, hstate, hp⟩ := h
      obtain ⟨source, hsource, htakes⟩ := (hmem state).1 hstate
      exact ⟨source, hsource, state, htakes, hp⟩
    · intro h
      obtain ⟨source, hsource, state, htakes, hp⟩ := h
      exact ⟨state, (hmem state).2 ⟨source, hsource, htakes⟩, hp⟩

theorem successors_of_not_settledAt {pattern : Pattern} {states : StateSet}
    (hc : ¬ pattern.SettledAt states.toList) (symbol : Text)
    (hs : ∀ state ∈ states, pattern.IsState state) :
    successors (.valid pattern) states symbol = .error .undecided := by
  rw [successors, moves_valid, Pattern.moves_of_not_settledAt hc symbol hs]
  rfl

end Parsed

end StarPattern
