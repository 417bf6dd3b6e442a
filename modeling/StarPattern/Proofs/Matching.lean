/-
**The laws of matching.**

`StarPattern/Meaning.lean` says what it means that a sequence of atoms matches a text, by taking the
text apart from the front.  The table and the automaton both work through the text the other way:
they extend what they know about a prefix by one more atom or by one more character.  This module
proves the laws that lead from the one direction to the other.

Main results:

* `StarPattern.Matches.append_iff` — two sequences of atoms in a row match what can be cut into a
  text of the one and a text of the other;
* `StarPattern.Matches.nil_right_iff` — what matches the empty text;
* `StarPattern.Matches.concat_plain_iff`, `StarPattern.Matches.concat_repeatable_iff` — **one more
  atom at the end**, as the table takes it;
* `StarPattern.Matches.concat_char_iff` — **one more character at the end**, as the automaton takes
  it.
-/
import StarPattern.Meaning

set_option relaxedAutoImplicit false
set_option autoImplicit false

namespace StarPattern

namespace Matches

variable {atom : Atom} {atoms front back rest : List Atom} {c : Char} {text first second : Text}

/-! ### Inversion -/

theorem nil_left_iff : Matches [] text ↔ text = [] := by
  constructor
  · intro h
    cases h
    rfl
  · rintro rfl
    exact Matches.nil

/-- An atom that is not repeatable takes the first character. -/
theorem cons_plain_iff (hr : atom.repeatable = false) :
    Matches (atom :: rest) text ↔
      ∃ c later, text = c :: later ∧ atom.accepts c = true ∧ Matches rest later := by
  constructor
  · intro h
    cases h with
    | one _ hc h => exact ⟨_, _, rfl, hc, h⟩
    | skip hr' _ => simp [hr] at hr'
    | more hr' _ _ => simp [hr] at hr'
  · intro h
    obtain ⟨c, later, rfl, hc, h⟩ := h
    exact Matches.one hr hc h

/-- A repeatable atom is left out, or takes the first character and stays. -/
theorem cons_repeatable_iff (hr : atom.repeatable = true) :
    Matches (atom :: rest) text ↔
      Matches rest text ∨
        ∃ c later, text = c :: later ∧ atom.accepts c = true ∧ Matches (atom :: rest) later := by
  constructor
  · intro h
    cases h with
    | one hr' _ _ => simp [hr] at hr'
    | skip _ h => exact Or.inl h
    | more _ hc h => exact Or.inr ⟨_, _, rfl, hc, h⟩
  · intro h
    rcases h with h | ⟨c, later, rfl, hc, h⟩
    · exact Matches.skip hr h
    · exact Matches.more hr hc h

/-- The empty text is matched where every atom may be left out. -/
theorem nil_right_iff : Matches atoms [] ↔ ∀ atom ∈ atoms, atom.repeatable = true := by
  induction atoms with
  | nil => simp [nil_left_iff]
  | cons atom rest ih =>
      rw [List.forall_mem_cons, ← ih]
      constructor
      · intro h
        cases h with
        | skip hr h => exact ⟨hr, h⟩
      · intro h
        obtain ⟨hr, h⟩ := h
        exact Matches.skip hr h

/-! ### Two sequences of atoms in a row -/

theorem append (hf : Matches front first) (hb : Matches back second) :
    Matches (front ++ back) (first ++ second) := by
  induction hf with
  | nil => exact hb
  | one hr hc _ ih => exact Matches.one hr hc ih
  | skip hr _ ih => exact Matches.skip hr ih
  | more hr hc _ ih => exact Matches.more hr hc ih

/-- What two sequences of atoms in a row match can be cut between them. -/
theorem exists_of_append (h : Matches (front ++ back) text) :
    ∃ first second, text = first ++ second ∧ Matches front first ∧ Matches back second := by
  generalize hg : front ++ back = atoms at h
  -- on the derivation, in which the front loses an atom at a time
  induction h generalizing front with
  | nil =>
      obtain ⟨rfl, rfl⟩ := List.append_eq_nil_iff.1 hg
      exact ⟨[], [], rfl, Matches.nil, Matches.nil⟩
  | @one atom rest c later hr hc h ih =>
      rcases List.append_eq_cons_iff.1 hg with ⟨rfl, rfl⟩ | ⟨front, rfl, rfl⟩
      · exact ⟨[], _, rfl, Matches.nil, Matches.one hr hc h⟩
      · obtain ⟨first, second, rfl, hf, hb⟩ := ih rfl
        exact ⟨c :: first, second, rfl, Matches.one hr hc hf, hb⟩
  | @skip atom rest later hr h ih =>
      rcases List.append_eq_cons_iff.1 hg with ⟨rfl, rfl⟩ | ⟨front, rfl, rfl⟩
      · exact ⟨[], _, rfl, Matches.nil, Matches.skip hr h⟩
      · obtain ⟨first, second, rfl, hf, hb⟩ := ih rfl
        exact ⟨first, second, rfl, Matches.skip hr hf, hb⟩
  | @more atom rest c later hr hc h ih =>
      rcases List.append_eq_cons_iff.1 hg with ⟨rfl, rfl⟩ | ⟨front, rfl, rfl⟩
      · exact ⟨[], _, rfl, Matches.nil, Matches.more hr hc h⟩
      · -- the atom stays, so it is still the first of the front
        obtain ⟨first, second, rfl, hf, hb⟩ := @ih (atom :: front) rfl
        exact ⟨c :: first, second, rfl, Matches.more hr hc hf, hb⟩

/-- **Two sequences of atoms in a row** match what can be cut into a text of the one and a text of
the other. -/
theorem append_iff :
    Matches (front ++ back) text ↔
      ∃ first second, text = first ++ second ∧ Matches front first ∧ Matches back second := by
  constructor
  · exact exists_of_append
  · intro h
    obtain ⟨first, second, rfl, hf, hb⟩ := h
    exact hf.append hb

/-- The first atoms match a prefix of what all of them match. -/
theorem exists_prefix (h : Matches (front ++ back) text) :
    ∃ first, first <+: text ∧ Matches front first := by
  obtain ⟨first, second, rfl, hf, -⟩ := exists_of_append h
  exact ⟨first, List.prefix_append first second, hf⟩

/-- The last character of a text falls to the last atoms, or to the first ones and nothing is left
for the last. -/
theorem append_concat_iff :
    Matches (front ++ back) (text ++ [c]) ↔
      (Matches front (text ++ [c]) ∧ Matches back []) ∨
        ∃ first second, text = first ++ second ∧ Matches front first ∧
          Matches back (second ++ [c]) := by
  rw [append_iff]
  constructor
  · intro h
    obtain ⟨first, second, ht, hf, hb⟩ := h
    -- the second text ends in the last character, unless there is none in it
    rcases List.eq_nil_or_concat second with rfl | ⟨second, d, rfl⟩
    · rw [List.append_nil] at ht
      exact Or.inl ⟨ht ▸ hf, hb⟩
    · rw [List.concat_eq_append] at ht hb
      rw [← List.append_assoc] at ht
      obtain ⟨rfl, hcd⟩ := List.append_inj' ht rfl
      exact Or.inr ⟨first, second, rfl, hf, hcd ▸ hb⟩
  · intro h
    rcases h with ⟨hf, hb⟩ | ⟨first, second, rfl, hf, hb⟩
    · exact ⟨text ++ [c], [], by simp, hf, hb⟩
    · exact ⟨first, second ++ [c], by simp, hf, hb⟩

/-! ### A single atom -/

theorem singleton_plain_iff (hr : atom.repeatable = false) :
    Matches [atom] text ↔ ∃ c, text = [c] ∧ atom.accepts c = true := by
  rw [cons_plain_iff hr]
  constructor
  · intro h
    obtain ⟨c, later, rfl, hc, h⟩ := h
    exact ⟨c, by rw [nil_left_iff.1 h], hc⟩
  · intro h
    obtain ⟨c, rfl, hc⟩ := h
    exact ⟨c, [], rfl, hc, Matches.nil⟩

/-- A repeatable atom alone matches the texts of which it accepts every character. -/
theorem singleton_repeatable_iff (hr : atom.repeatable = true) :
    Matches [atom] text ↔ ∀ c ∈ text, atom.accepts c = true := by
  induction text with
  | nil => simp [nil_right_iff, hr]
  | cons c later ih =>
      rw [cons_repeatable_iff hr, List.forall_mem_cons, ← ih]
      constructor
      · intro h
        rcases h with h | ⟨d, later', hd, hc, h⟩
        · simp [nil_left_iff] at h
        · obtain ⟨rfl, rfl⟩ := List.cons.inj hd
          exact ⟨hc, h⟩
      · intro h
        obtain ⟨hc, h⟩ := h
        exact Or.inr ⟨c, later, rfl, hc, h⟩

theorem singleton_plain_concat_iff (hr : atom.repeatable = false) :
    Matches [atom] (text ++ [c]) ↔ text = [] ∧ atom.accepts c = true := by
  rw [singleton_plain_iff hr]
  constructor
  · intro h
    obtain ⟨d, ht, hd⟩ := h
    rw [← List.nil_append [d]] at ht
    obtain ⟨rfl, hcd⟩ := List.append_inj' ht rfl
    obtain ⟨rfl, -⟩ := List.cons.inj hcd
    exact ⟨rfl, hd⟩
  · intro h
    obtain ⟨rfl, hc⟩ := h
    exact ⟨c, rfl, hc⟩

theorem singleton_repeatable_concat_iff (hr : atom.repeatable = true) :
    Matches [atom] (text ++ [c]) ↔ Matches [atom] text ∧ atom.accepts c = true := by
  simp only [singleton_repeatable_iff hr, List.forall_mem_append, List.forall_mem_singleton]

/-! ### One more atom at the end -/

theorem not_concat_plain_nil (hr : atom.repeatable = false) : ¬ Matches (atoms ++ [atom]) [] := by
  rw [nil_right_iff]
  intro h
  have := h atom (by simp)
  simp [hr] at this

/-- One more atom that is not repeatable takes the last character. -/
theorem concat_plain_iff (hr : atom.repeatable = false) :
    Matches (atoms ++ [atom]) (text ++ [c]) ↔ Matches atoms text ∧ atom.accepts c = true := by
  rw [append_concat_iff]
  constructor
  · intro h
    rcases h with ⟨-, hs⟩ | ⟨first, second, rfl, hf, hs⟩
    · simp [nil_right_iff, hr] at hs
    · obtain ⟨rfl, hc⟩ := (singleton_plain_concat_iff hr).1 hs
      exact ⟨by simpa using hf, hc⟩
  · intro h
    obtain ⟨hf, hc⟩ := h
    exact Or.inr ⟨text, [], by simp, hf, (singleton_plain_concat_iff hr).2 ⟨rfl, hc⟩⟩

/-- One more repeatable atom may be left out at once. -/
theorem concat_of_repeatable (hr : atom.repeatable = true) (h : Matches atoms text) :
    Matches (atoms ++ [atom]) text := by
  have hs : Matches [atom] [] := Matches.skip hr Matches.nil
  simpa using h.append hs

/-- **One more repeatable atom** is left out, or takes the last character after the same atoms have
matched what is before it. -/
theorem concat_repeatable_iff (hr : atom.repeatable = true) :
    Matches (atoms ++ [atom]) (text ++ [c]) ↔
      Matches atoms (text ++ [c]) ∨ (Matches (atoms ++ [atom]) text ∧ atom.accepts c = true) := by
  constructor
  · intro h
    rcases append_concat_iff.1 h with ⟨hf, -⟩ | ⟨first, second, rfl, hf, hs⟩
    · exact Or.inl hf
    · obtain ⟨hs, hc⟩ := (singleton_repeatable_concat_iff hr).1 hs
      exact Or.inr ⟨hf.append hs, hc⟩
  · intro h
    rcases h with h | ⟨h, hc⟩
    · exact concat_of_repeatable hr h
    · obtain ⟨first, second, rfl, hf, hs⟩ := append_iff.1 h
      rw [List.append_assoc]
      exact hf.append ((singleton_repeatable_concat_iff hr).2 ⟨hs, hc⟩)

/-! ### One more character at the end -/

/-- The atoms that have been entered when the atom after `front` has taken some characters: that
atom is among them only if it may take more. -/
def entered (front : List Atom) (atom : Atom) : List Atom :=
  if atom.repeatable then front ++ [atom] else front

theorem entered_cons (first atom : Atom) (front : List Atom) :
    entered (first :: front) atom = first :: entered front atom := by
  by_cases hr : atom.repeatable <;> simp [entered, hr]

/-- An atom that has been entered without taking a character changes nothing. -/
theorem entered_of (h : Matches front text) (atom : Atom) : Matches (entered front atom) text := by
  cases hr : atom.repeatable with
  | true =>
      rw [entered, if_pos hr]
      exact concat_of_repeatable hr h
  | false =>
      rw [entered, if_neg (by simp [hr])]
      exact h

theorem singleton_concat_iff :
    Matches [atom] (text ++ [c]) ↔ atom.accepts c = true ∧ Matches (entered [] atom) text := by
  cases hr : atom.repeatable with
  | true => rw [singleton_repeatable_concat_iff hr, entered, if_pos hr, and_comm, List.nil_append]
  | false =>
      rw [singleton_plain_concat_iff hr, entered, if_neg (by simp [hr]), and_comm, nil_left_iff]

/-- A character that an atom takes extends what the atoms entered have matched before. -/
theorem entered_concat (hc : atom.accepts c = true) (h : Matches (entered front atom) text) :
    Matches (front ++ [atom]) (text ++ [c]) := by
  cases hr : atom.repeatable with
  | true =>
      rw [entered, if_pos hr] at h
      exact (concat_repeatable_iff hr).2 (Or.inr ⟨h, hc⟩)
  | false =>
      rw [entered, if_neg (by simp [hr])] at h
      exact (concat_plain_iff hr).2 ⟨h, hc⟩

/-- **One more character at the end** is taken by one of the atoms, after which all atoms are left
out; what is before it is matched by the atoms up to that one. -/
theorem concat_char_iff :
    Matches atoms (text ++ [c]) ↔
      ∃ (i : Nat) (atom : Atom), atoms[i]? = some atom ∧ atom.accepts c = true ∧
        (∀ a ∈ atoms.drop (i + 1), a.repeatable = true) ∧
        Matches (entered (atoms.take i) atom) text := by
  constructor
  · intro h
    induction atoms generalizing text with
    | nil => simp [nil_left_iff] at h
    | cons first rest ih =>
        rw [← List.singleton_append] at h
        rcases append_concat_iff.1 h with ⟨hf, hb⟩ | ⟨before, after, rfl, hf, hb⟩
        · -- the first atom takes the last character
          obtain ⟨hc, he⟩ := singleton_concat_iff.1 hf
          exact ⟨0, first, rfl, hc, nil_right_iff.1 hb, he⟩
        · -- an atom after the first one takes it
          obtain ⟨i, atom, hi, hc, hd, he⟩ := ih hb
          refine ⟨i + 1, atom, hi, hc, hd, ?_⟩
          rw [List.take_succ_cons, entered_cons, ← List.singleton_append]
          exact hf.append he
  · intro h
    obtain ⟨i, atom, hi, hc, hd, he⟩ := h
    obtain ⟨hlt, rfl⟩ := List.getElem?_eq_some_iff.1 hi
    have hsplit : atoms = (atoms.take i ++ [atoms[i]]) ++ atoms.drop (i + 1) := by
      rw [List.append_assoc, List.singleton_append, ← List.drop_eq_getElem_cons hlt,
        List.take_append_drop]
    have hrest : Matches (atoms.drop (i + 1)) [] := nil_right_iff.2 hd
    rw [hsplit]
    simpa using (entered_concat hc he).append hrest

end Matches

end StarPattern
