/-
**What the sets of states say.**

A state is the number of atoms that have been dealt with, but in a state before a repeatable atom
the automaton may also be in the middle of repeating that atom.  So the state stands for the atoms
that have been *entered*: those before it, and the one at it if it is repeatable.  The set of states
after some characters holds exactly the states whose entered atoms match these characters.  The
first set has this property, and one more character keeps it.

Main definitions:

* `StarPattern.Pattern.enteredAt` — the atoms that have been entered in a state;
* `StarPattern.Pattern.Tracks` — a set of states says which atoms a text takes one through.

Main results:

* `StarPattern.Pattern.entered_concat_char_iff` — one more character, in terms of moves;
* `StarPattern.Pattern.closure_start`, `StarPattern.Pattern.Tracks.next` — the first set, and **one
  more character**;
* `StarPattern.Pattern.Tracks.setsFrom` — all sets along a text;
* `StarPattern.Pattern.Tracks.follow` — where following a text ends.
-/
import StarPattern.Proofs.Automaton.Closure
import StarPattern.Proofs.Automaton.Memory
import StarPattern.Proofs.Matching

set_option relaxedAutoImplicit false
set_option autoImplicit false

namespace StarPattern

namespace Pattern

variable {pattern : Pattern} {states : StateSet} {text : Text} {c : Char} {atom : Atom}
variable {i k : Nat}

/-! ### States from the front -/

/-- There is a repeatable atom at the state. -/
def repeatableAt (pattern : Pattern) (k : Nat) : Bool := pattern.atoms[k]?.any Atom.repeatable

theorem repeatableAt_of_getElem? (h : pattern.atoms[k]? = some atom) :
    pattern.repeatableAt k = atom.repeatable := by
  rw [repeatableAt, h, Option.any_some]

theorem freeAt_natCast_iff : pattern.FreeAt k ↔ pattern.repeatableAt k = true := by
  constructor
  · intro h
    obtain ⟨atom, h, hr⟩ := h
    rw [repeatableAt_of_getElem? (get_natCast_eq_ok_iff.1 h), hr]
  · intro h
    cases ha : pattern.atoms[k]? with
    | none => simp [repeatableAt, ha] at h
    | some atom =>
        refine ⟨atom, get_natCast_eq_ok_iff.2 ha, ?_⟩
        rw [← repeatableAt_of_getElem? ha, h]

theorem passes_natCast_iff :
    pattern.Passes i k ↔ i ≤ k ∧ ∀ j, i ≤ j → j < k → pattern.repeatableAt j = true := by
  constructor
  · intro h
    obtain ⟨hle, hall⟩ := h
    exact ⟨by omega, fun j hlow hhigh => freeAt_natCast_iff.1 (hall j (by omega) (by omega))⟩
  · intro h
    obtain ⟨hle, hall⟩ := h
    refine ⟨by omega, ?_⟩
    intro state hlow hhigh
    obtain ⟨j, rfl⟩ : ∃ j : Nat, state = j := ⟨state.toNat, by omega⟩
    exact freeAt_natCast_iff.2 (hall j (by omega) (by omega))

/-! ### The atoms entered in a state -/

/-- The number of atoms that have been entered in a state. -/
def depth (pattern : Pattern) (k : Nat) : Nat := if pattern.repeatableAt k then k + 1 else k

/-- The atoms that have been entered in a state: those before it, and a repeatable one at it. -/
def enteredAt (pattern : Pattern) (k : Nat) : List Atom := pattern.atoms.take (pattern.depth k)

theorem repeatableAt_length (pattern : Pattern) : pattern.repeatableAt pattern.length = false := by
  have hnone : pattern.atoms[pattern.length]? = none := List.getElem?_eq_none (Nat.le_refl _)
  rw [repeatableAt, hnone, Option.any_none]

theorem lt_length_of_repeatableAt (h : pattern.repeatableAt k = true) : k < pattern.length := by
  by_cases hlt : k < pattern.length
  · exact hlt
  · rw [repeatableAt, List.getElem?_eq_none (Nat.le_of_not_lt hlt)] at h
    cases h

theorem depth_le_length (hk : k ≤ pattern.length) : pattern.depth k ≤ pattern.length := by
  rw [depth]
  split
  next h => exact lt_length_of_repeatableAt h
  next => exact hk

theorem le_depth (pattern : Pattern) (k : Nat) : k ≤ pattern.depth k := by
  rw [depth]
  split <;> omega

/-- In the final state all atoms have been entered. -/
theorem enteredAt_length (pattern : Pattern) :
    pattern.enteredAt pattern.length = pattern.atoms := by
  rw [enteredAt, depth, repeatableAt_length]
  exact List.take_length

theorem enteredAt_of_getElem? (h : pattern.atoms[k]? = some atom) :
    pattern.enteredAt k = Matches.entered (pattern.atoms.take k) atom := by
  rw [enteredAt, depth, repeatableAt_of_getElem? h, Matches.entered]
  split
  · rw [List.take_add_one, h, Option.toList_some]
  · rfl

theorem lt_depth_iff :
    i < pattern.depth k ↔ i < k ∨ (i = k ∧ pattern.repeatableAt k = true) := by
  rw [depth]
  split
  next h =>
    simp only [h, and_true]
    omega
  next h => simp [h]

/-- The atom at a state counts as entered only if it is repeatable, so it makes no difference to
whether the atoms entered are. -/
theorem forall_lt_depth_iff :
    (∀ j, i < j → j < pattern.depth k → pattern.repeatableAt j = true) ↔
      ∀ j, i < j → j < k → pattern.repeatableAt j = true := by
  constructor
  · intro h j hlow hhigh
    exact h j hlow (lt_depth_iff.2 (Or.inl hhigh))
  · intro h j hlow hhigh
    rcases lt_depth_iff.1 hhigh with hlt | ⟨rfl, hr⟩
    · exact h j hlow hlt
    · exact hr

/-- After an atom has taken a character, the automaton can move on to a state without reading where
the atom has been entered and the atoms entered after it can be left out. -/
theorem passes_iff_of_getElem? (h : pattern.atoms[i]? = some atom) :
    pattern.Passes (if atom.repeatable then (i : Int) else i + 1) k ↔
      i < pattern.depth k ∧
        ∀ j, i < j → j < pattern.depth k → pattern.repeatableAt j = true := by
  have hi := repeatableAt_of_getElem? h
  rw [lt_depth_iff, forall_lt_depth_iff]
  cases hr : atom.repeatable with
  | true =>
      rw [hr] at hi
      rw [if_pos rfl, passes_natCast_iff]
      constructor
      · intro hp
        obtain ⟨hle, hall⟩ := hp
        refine ⟨?_, fun j hlow hhigh => hall j (Nat.le_of_lt hlow) hhigh⟩
        rcases Nat.lt_or_eq_of_le hle with hlt | rfl
        · exact Or.inl hlt
        · exact Or.inr ⟨rfl, hi⟩
      · intro hd
        obtain ⟨hle, hall⟩ := hd
        refine ⟨by omega, fun j hlow hhigh => ?_⟩
        rcases Nat.lt_or_eq_of_le hlow with hlt | rfl
        · exact hall j hlt hhigh
        · exact hi
  | false =>
      rw [hr] at hi
      have hcast : ((i : Int) + 1) = ((i + 1 : Nat) : Int) := by omega
      rw [if_neg (by simp), hcast, passes_natCast_iff]
      constructor
      · intro hp
        obtain ⟨hle, hall⟩ := hp
        exact ⟨Or.inl hle, hall⟩
      · intro hd
        obtain ⟨hlt | ⟨rfl, hk⟩, hall⟩ := hd
        · exact ⟨hlt, hall⟩
        · rw [hi] at hk
          cases hk

/-- A stretch of the atoms is repeatable where the atom at each of its places is. -/
theorem forall_mem_drop_take_iff {m d : Nat} (hd : d ≤ pattern.length) :
    (∀ a ∈ (pattern.atoms.take d).drop m, a.repeatable = true) ↔
      ∀ j, m ≤ j → j < d → pattern.repeatableAt j = true := by
  constructor
  · intro h j hlow hhigh
    have hlt : j < pattern.atoms.length := Nat.lt_of_lt_of_le hhigh hd
    have hget : pattern.atoms[j]? = some pattern.atoms[j] := List.getElem?_eq_getElem hlt
    have hplace : ((pattern.atoms.take d).drop m)[j - m]? = some pattern.atoms[j] := by
      rw [List.getElem?_drop, Nat.add_sub_cancel' hlow, List.getElem?_take_of_lt hhigh, hget]
    rw [repeatableAt_of_getElem? hget]
    exact h _ (List.mem_of_getElem? hplace)
  · intro h a hmem
    obtain ⟨n, hn⟩ := List.mem_iff_getElem?.1 hmem
    rw [List.getElem?_drop, List.getElem?_take] at hn
    split at hn
    next hlt =>
      rw [← repeatableAt_of_getElem? hn]
      exact h _ (Nat.le_add_right m n) hlt
    next => cases hn

/-- The atoms entered in a state match the empty text where the state can be reached from the first
one without reading. -/
theorem enteredAt_nil_iff (hk : k ≤ pattern.length) :
    Matches (pattern.enteredAt k) [] ↔ pattern.Passes 0 k := by
  have hall := forall_mem_drop_take_iff (m := 0) (depth_le_length hk)
  rw [List.drop_zero] at hall
  rw [Matches.nil_right_iff, enteredAt, hall, ← Int.natCast_zero, passes_natCast_iff]
  constructor
  · intro h
    exact ⟨Nat.zero_le k, fun j hlow hhigh => h j hlow (lt_depth_iff.2 (Or.inl hhigh))⟩
  · rintro ⟨-, h⟩ j hlow hhigh
    rcases lt_depth_iff.1 hhigh with hlt | ⟨rfl, hr⟩
    · exact h j hlow hlt
    · exact hr

/-- **One more character**: the atoms entered in a state match it where an atom that has been
entered before takes it, and the automaton can move on from there to the state. -/
theorem entered_concat_char_iff (hk : k ≤ pattern.length) :
    Matches (pattern.enteredAt k) (text ++ [c]) ↔
      ∃ i atom, pattern.atoms[i]? = some atom ∧ atom.accepts c = true ∧
        Matches (pattern.enteredAt i) text ∧
        pattern.Passes (if atom.repeatable then (i : Int) else i + 1) k := by
  have hdepth := depth_le_length hk
  rw [enteredAt, Matches.concat_char_iff]
  constructor
  · intro h
    obtain ⟨i, atom, hi, hc, hd, he⟩ := h
    rw [List.getElem?_take] at hi
    split at hi
    next hlt =>
      rw [List.take_take, Nat.min_eq_left (Nat.le_of_lt hlt), ← enteredAt_of_getElem? hi] at he
      exact ⟨i, atom, hi, hc, he,
        (passes_iff_of_getElem? hi).2 ⟨hlt, (forall_mem_drop_take_iff hdepth).1 hd⟩⟩
    next => cases hi
  · intro h
    obtain ⟨i, atom, hi, hc, he, hp⟩ := h
    obtain ⟨hlt, hall⟩ := (passes_iff_of_getElem? hi).1 hp
    refine ⟨i, atom, by rw [List.getElem?_take_of_lt hlt, hi], hc,
      (forall_mem_drop_take_iff hdepth).2 hall, ?_⟩
    rw [List.take_take, Nat.min_eq_left (Nat.le_of_lt hlt), ← enteredAt_of_getElem? hi]
    exact he

/-! ### Sets of states -/

/-- The members of the set are the states whose entered atoms match the text. -/
def Tracks (pattern : Pattern) (states : StateSet) (text : Text) : Prop :=
  ∀ state, state ∈ states ↔
    ∃ k : Nat, state = k ∧ k ≤ pattern.length ∧ Matches (pattern.enteredAt k) text

theorem isState_natCast (hk : k ≤ pattern.length) : pattern.IsState k :=
  ⟨by omega, by omega⟩

/-- The first set of an automaton tracks the empty text. -/
theorem closure_start (pattern : Pattern) :
    ∃ states, pattern.closure [0] = .ok states ∧ pattern.Tracks states [] := by
  have hzero : pattern.IsState 0 := isState_natCast (Nat.zero_le pattern.length)
  obtain ⟨states, hstates, hmem⟩ := closure_of_isState (List.forall_mem_singleton.2 hzero)
  refine ⟨states, hstates, ?_⟩
  intro state
  rw [hmem]
  constructor
  · intro h
    obtain ⟨source, hs, hp⟩ := h
    obtain rfl := List.mem_singleton.1 hs
    obtain ⟨k, rfl⟩ : ∃ k : Nat, state = k := ⟨state.toNat, by have := hp.1; omega⟩
    have hk : k ≤ pattern.length := by have := (hp.isState hzero).2; omega
    exact ⟨k, rfl, hk, (enteredAt_nil_iff hk).2 hp⟩
  · intro h
    obtain ⟨k, rfl, hk, hm⟩ := h
    exact ⟨0, List.mem_singleton_self 0, (enteredAt_nil_iff hk).1 hm⟩

namespace Tracks

theorem mem_natCast_iff (h : pattern.Tracks states text) (hk : k ≤ pattern.length) :
    (k : Int) ∈ states ↔ Matches (pattern.enteredAt k) text := by
  rw [h]
  constructor
  · intro hs
    obtain ⟨n, hn, -, hm⟩ := hs
    obtain rfl : k = n := by omega
    exact hm
  · intro hm
    exact ⟨k, rfl, hk, hm⟩

theorem final_mem_iff (h : pattern.Tracks states text) :
    pattern.final ∈ states ↔ Matches pattern.atoms text := by
  rw [final, h.mem_natCast_iff (Nat.le_refl _), enteredAt_length]

/-- All members are states counted from the front. -/
theorem bounds (h : pattern.Tracks states text) :
    ∀ state ∈ states, 0 ≤ state ∧ state ≤ pattern.length := by
  intro state hs
  obtain ⟨k, rfl, hk, -⟩ := (h state).1 hs
  exact ⟨by omega, by omega⟩

theorem isState (h : pattern.Tracks states text) : ∀ state ∈ states, pattern.IsState state := by
  intro state hs
  have := h.bounds state hs
  exact ⟨by omega, this.2⟩

/-- **One more character**: where no atom at one of the states is abstract, the set after it is
worked out, and tracks the text with it. -/
theorem next (h : pattern.Tracks states text) (hc : pattern.SettledAt states.toList) (c : Char) :
    ∃ new, (Parsed.valid pattern).successors states [c] = .ok new ∧
      pattern.Tracks new (text ++ [c]) := by
  have hstates := h.isState
  obtain ⟨new, hnew, hmem⟩ := Parsed.successors_of_isState hc [c] hstates
  refine ⟨new, hnew, ?_⟩
  intro target
  rw [hmem]
  constructor
  · -- a move leads to a state whose entered atoms match the character too
    intro hreached
    obtain ⟨state, hs, moved, ⟨atom, hg, ht, rfl⟩, hp⟩ := hreached
    have hmoved := (Takes.isState (hstates state hs) ⟨atom, hg, ht, rfl⟩)
    obtain ⟨i, rfl, -, hm⟩ := (h state).1 hs
    have hi := get_natCast_eq_ok_iff.1 hg
    rw [Atom.acceptsText_singleton (hc _ hs atom hg)] at ht
    have hlow : 0 ≤ target := by
      have := hp.1
      split at this <;> omega
    obtain ⟨k, rfl⟩ : ∃ k : Nat, target = k := ⟨target.toNat, by omega⟩
    have hk : k ≤ pattern.length := by have := (hp.isState hmoved).2; omega
    exact ⟨k, rfl, hk, (entered_concat_char_iff hk).2 ⟨i, atom, hi, by simpa using ht, hm, hp⟩⟩
  · -- and the atom that has taken the character shows the move to each such state
    intro hentered
    obtain ⟨k, rfl, hk, hm⟩ := hentered
    obtain ⟨i, atom, hi, ha, he, hp⟩ := (entered_concat_char_iff hk).1 hm
    have hg : pattern.get i = .ok atom := get_natCast_eq_ok_iff.2 hi
    have hle : i ≤ pattern.length := Nat.le_of_lt (List.getElem?_eq_some_iff.1 hi).1
    have hmem : (i : Int) ∈ states := (h.mem_natCast_iff hle).2 he
    refine ⟨i, hmem, _, ⟨atom, hg, ?_, rfl⟩, hp⟩
    rw [Atom.acceptsText_singleton (hc _ hmem atom hg), ha]

/-- **From the empty set** no state is reached again. -/
theorem append_of_empty (h : pattern.Tracks ∅ text) (rest : Text) :
    pattern.Tracks ∅ (text ++ rest) := by
  induction rest generalizing text with
  | nil => rwa [List.append_nil]
  | cons c rest ih =>
      obtain ⟨new, hnew, htracks⟩ := h.next (List.forall_mem_nil _) c
      obtain rfl : ∅ = new := Except.ok.inj hnew
      rw [← List.singleton_append, ← List.append_assoc]
      exact ih htracks

theorem not_matches_of_empty (h : pattern.Tracks ∅ text) (rest : Text) :
    ¬ Matches pattern.atoms (text ++ rest) := by
  rw [← (h.append_of_empty rest).final_mem_iff]
  exact StateSet.not_mem_empty pattern.final

/-- **All sets along a text** track its prefixes. -/
theorem setsFrom (h : pattern.Tracks states text) (hc : pattern.IsConcrete) (rest : Text) :
    ∃ sets, (Parsed.valid pattern).setsFrom states rest = .ok sets ∧
      sets.length = rest.length ∧
      ∀ j new, (states :: sets)[j]? = some new → pattern.Tracks new (text ++ rest.take j) := by
  induction rest generalizing states text with
  | nil =>
      refine ⟨[], rfl, rfl, ?_⟩
      intro j new hj
      obtain ⟨rfl, rfl⟩ : j = 0 ∧ states = new := by
        cases j with
        | zero => exact ⟨rfl, by simpa using hj⟩
        | succ j => simp at hj
      simpa using h
  | cons c rest ih =>
      obtain ⟨next, hnext, htracks⟩ := h.next (hc.settledAt _) c
      obtain ⟨sets, hsets, hlen, hall⟩ := ih htracks
      have hcons : (Parsed.valid pattern).setsFrom states (c :: rest) = .ok (next :: sets) := by
        rw [Parsed.setsFrom, hnext]
        exact congrArg (Except.map (next :: ·)) hsets
      refine ⟨next :: sets, hcons, by simp [hlen], ?_⟩
      intro j new hj
      cases j with
      | zero =>
          obtain rfl : states = new := by simpa using hj
          simpa using h
      | succ j => simpa using hall j new hj

/-- Following a text may end early, but it ends in a set that has the final state exactly if the
atoms match all of the text. -/
theorem follow (h : pattern.Tracks states text) (hc : pattern.IsConcrete) (rest : Text) :
    ∃ reached, (Parsed.valid pattern).follow states rest = .ok reached ∧
      (pattern.final ∈ reached ↔ Matches pattern.atoms (text ++ rest)) := by
  induction rest generalizing states text with
  | nil => exact ⟨states, rfl, by rw [List.append_nil, h.final_mem_iff]⟩
  | cons c rest ih =>
      obtain ⟨next, hnext, htracks⟩ := h.next (hc.settledAt _) c
      rw [Parsed.follow, hnext]
      cases he : next.isEmpty with
      | true =>
          -- no state is left, and the rest of the text brings none back
          obtain rfl := StateSet.eq_empty_of_isEmpty he
          have hrest := htracks.not_matches_of_empty rest
          rw [List.append_assoc, List.singleton_append] at hrest
          exact ⟨∅, rfl, iff_of_false (StateSet.not_mem_empty pattern.final) hrest⟩
      | false =>
          obtain ⟨reached, hreached, hfinal⟩ := ih htracks
          refine ⟨reached, by simpa [he] using hreached, ?_⟩
          rw [hfinal, List.append_assoc, List.singleton_append]

end Tracks

end Pattern

end StarPattern
