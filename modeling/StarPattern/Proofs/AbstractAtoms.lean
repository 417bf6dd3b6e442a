/-
**Where an abstract atom stands in the way.**

An abstract atom cannot decide, so a match may fail for lack of a decision.  Each engine asks the
first abstract atom only if it gets to it, and the two get to it in different ways.  The table asks
it about the whole text at once, as soon as the atoms before it match any prefix of the text.  The
automaton asks it about one character, the one behind a prefix that these atoms match, so there has
to be such a character.  The atoms behind the first abstract one are never asked: they can only be
left out, and neither engine gets past the abstract one in any other way.

Main definitions:

* `StarPattern.Pattern.settled`, `StarPattern.Pattern.unsettled` — the atoms before the first
  abstract one, and that one with all behind it;
* `StarPattern.NoProperPrefix` — the atoms match at most the whole of a text.

Main results:

* `StarPattern.Table.rows_cases` — the table, if there is an abstract atom;
* `StarPattern.Pattern.Tracks.follow_cases` — the automaton, if there is one;
* `StarPattern.engines_at_an_abstract_atom` — both engines side by side.
-/
import StarPattern.Proofs.Agreement

set_option relaxedAutoImplicit false
set_option autoImplicit false

namespace StarPattern

variable {pattern : Pattern} {front back atoms : List Atom} {atom : Atom} {text : Text} {c : Char}

/-! ### The first abstract atom -/

namespace Pattern

/-- The atoms before the first abstract one. -/
def settled (pattern : Pattern) : List Atom :=
  pattern.atoms.takeWhile fun atom => decide atom.IsConcrete

/-- The first abstract atom and all atoms behind it. -/
def unsettled (pattern : Pattern) : List Atom :=
  pattern.atoms.dropWhile fun atom => decide atom.IsConcrete

theorem settled_append_unsettled (pattern : Pattern) :
    pattern.settled ++ pattern.unsettled = pattern.atoms := List.takeWhile_append_dropWhile

theorem settled_isConcrete (pattern : Pattern) : ∀ a ∈ pattern.settled, a.IsConcrete :=
  fun a ha => of_decide_eq_true (List.all_eq_true.1 List.all_takeWhile a ha)

theorem exists_unsettled (h : ¬ pattern.IsConcrete) :
    ∃ atom back, pattern.unsettled = atom :: back ∧ ¬ atom.IsConcrete := by
  have hall := pattern.settled_append_unsettled
  have hhead := List.head?_dropWhile_not (fun atom => decide atom.IsConcrete) pattern.atoms
  rw [← unsettled] at hhead
  cases hu : pattern.unsettled with
  | nil =>
      rw [hu, List.append_nil] at hall
      exact absurd (fun a ha => pattern.settled_isConcrete a (hall ▸ ha)) h
  | cons atom back =>
      rw [hu] at hhead
      exact ⟨atom, back, rfl, by simpa using hhead⟩

end Pattern

/-! ### Proper prefixes -/

/-- No prefix of the text is matched by the atoms, but perhaps the text itself. -/
def NoProperPrefix (atoms : List Atom) (text : Text) : Prop :=
  ∀ first, first <+: text → Matches atoms first → first = text

theorem noProperPrefix_nil (atoms : List Atom) : NoProperPrefix atoms [] :=
  fun _ hpre _ => List.prefix_nil.1 hpre

theorem not_noProperPrefix_iff :
    ¬ NoProperPrefix atoms text ↔
      ∃ first, first <+: text ∧ first ≠ text ∧ Matches atoms first := by
  simp only [NoProperPrefix, Classical.not_forall, exists_prop]
  exact exists_congr fun first => and_congr_right fun _ => and_comm

/-- One more character makes the text itself a proper prefix. -/
theorem noProperPrefix_concat_iff :
    NoProperPrefix atoms (text ++ [c]) ↔ NoProperPrefix atoms text ∧ ¬ Matches atoms text := by
  constructor
  · intro h
    have hnone : ∀ first, first <+: text → ¬ Matches atoms first := by
      intro first hpre hm
      have hlength := hpre.length_le
      rw [h first (hpre.trans (List.prefix_append text [c])) hm, List.length_append] at hlength
      exact absurd hlength (Nat.not_succ_le_self text.length)
    exact ⟨fun first hpre hm => absurd hm (hnone first hpre), hnone text List.prefix_rfl⟩
  · rintro ⟨h, hn⟩ first hpre hm
    rcases List.prefix_concat_iff.1 hpre with rfl | hpre
    · rfl
    · rw [h first hpre hm] at hm
      exact absurd hm hn

theorem Matches.not_noProperPrefix (h : Matches atoms text) (c : Char) (rest : Text) :
    ¬ NoProperPrefix atoms (text ++ c :: rest) := by
  intro hn
  have heq := hn text (List.prefix_append text (c :: rest)) h
  simp at heq

/-- If the first atoms match no proper prefix, then nothing is left for the atoms behind them. -/
theorem NoProperPrefix.matches_append_iff (h : NoProperPrefix front text) :
    Matches (front ++ back) text ↔
      Matches front text ∧ ∀ a ∈ back, a.repeatable = true := by
  rw [Matches.append_iff, ← Matches.nil_right_iff]
  constructor
  · rintro ⟨first, second, rfl, hf, hb⟩
    obtain rfl : second = [] :=
      List.self_eq_append_right.1 (h first (List.prefix_append first second) hf)
    exact ⟨by simpa using hf, hb⟩
  · rintro ⟨hf, hb⟩
    exact ⟨text, [], by simp, hf, hb⟩

/-! ### The table -/

namespace Table

variable {row : Row}

/-- The table gets to the abstract atom, and fails there, exactly if the atoms before it match a
prefix of the text; otherwise a row without a match has ended it before. -/
theorem rows_cases (h : Describes row atoms text) (hrow : row.any id = true)
    (hf : ∀ a ∈ front, a.IsConcrete) (ha : ¬ atom.IsConcrete) (ht : text ≠ [])
    (back : List Atom) :
    ((∃ first, first <+: text ∧ Matches (atoms ++ front) first) ∧
      rows text row (front ++ atom :: back) = .error .undecided) ∨
    ((¬ ∃ first, first <+: text ∧ Matches (atoms ++ front) first) ∧
      ∃ computed, rows text row (front ++ atom :: back) = .ok computed ∧
        verdict row computed = false) := by
  induction front generalizing row atoms with
  | nil =>
      left
      refine ⟨by simpa using h.any_iff.1 hrow, ?_⟩
      rw [List.nil_append, rows, rowAfter, Atom.hits_of_abstract ha ht]
      rfl
  | cons first front ih =>
      rw [List.forall_mem_cons] at hf
      obtain ⟨next, hr, hd⟩ := h.next hf.1
      have hsplit : atoms ++ first :: front = (atoms ++ [first]) ++ front := by simp
      rw [hsplit, List.cons_append]
      cases hn : next.any id with
      | true =>
          rw [rows_of_any hr hn]
          rcases ih hd hn hf.2 with ⟨hm, hrows⟩ | ⟨hm, computed, hrows, hv⟩
          · exact Or.inl ⟨hm, by rw [hrows]; rfl⟩
          · refine Or.inr ⟨hm, next :: computed, by rw [hrows]; rfl, ?_⟩
            rw [← hv, verdict, verdict, List.getLastD_cons]
      | false =>
          right
          refine ⟨?_, [next], rows_of_not_any hr hn, hd.verdict_of_not_any hn row⟩
          rintro ⟨taken, hpre, hm⟩
          exact hd.not_matches_prefix hn hpre front hm

/-- The table fails where there is a text to ask the abstract atom about and the atoms before it
match a prefix of it; otherwise it decides as if that atom could only be left out. -/
theorem accepts_cases (hp : pattern.atoms = front ++ atom :: back)
    (hf : ∀ a ∈ front, a.IsConcrete) (ha : ¬ atom.IsConcrete) (text : Text) :
    ((text ≠ [] ∧ ∃ first, first <+: text ∧ Matches front first) ∧
      accepts (.valid pattern) (.text text) = .error .undecided) ∨
    (¬ (text ≠ [] ∧ ∃ first, first <+: text ∧ Matches front first) ∧
      ∃ matched, accepts (.valid pattern) (.text text) = .ok matched ∧
        (matched = true ↔ Matches front text ∧ ∀ a ∈ atom :: back, a.repeatable = true)) := by
  by_cases ht : text = []
  · subst ht
    refine Or.inr ⟨fun h => h.1 rfl, pattern.nullable, rfl, ?_⟩
    rw [nullable_eq_true_iff, hp, (noProperPrefix_nil front).matches_append_iff]
  · have hcases := rows_cases (firstRow_describes text) rfl hf ha ht back
    rw [List.nil_append, ← hp] at hcases
    rcases hcases with ⟨hm, hrows⟩ | ⟨hm, computed, hrows, hv⟩
    · exact Or.inl ⟨⟨ht, hm⟩,
        congrArg (Examination.matched <$> ·) (examineText_of_error ht hrows)⟩
    · refine Or.inr ⟨fun h => hm h.2, _,
        congrArg (Examination.matched <$> ·) (examineText_of_rows ht hrows), ?_⟩
      rw [hv]
      exact iff_of_false Bool.false_ne_true fun h => hm ⟨text, List.prefix_rfl, h.1⟩

end Table

/-! ### The automaton -/

namespace Pattern.Tracks

variable {states : StateSet}

/-- The state before the abstract atom is reached where the atoms before it match. -/
theorem mem_of_matches (h : pattern.Tracks states text) (hp : pattern.atoms = front ++ atom :: back)
    (hm : Matches front text) : (front.length : Int) ∈ states := by
  have hget : pattern.atoms[front.length]? = some atom := by simp [hp]
  have hle : front.length ≤ pattern.length := Nat.le_of_lt (List.getElem?_eq_some_iff.1 hget).1
  rw [h.mem_natCast_iff hle, enteredAt_of_getElem? hget, hp, List.take_left]
  exact hm.entered_of atom

/-- As long as the atoms before the abstract one have matched no proper prefix, no state behind it
is reached without that state. -/
theorem settledAt_iff (h : pattern.Tracks states text) (hp : pattern.atoms = front ++ atom :: back)
    (hf : ∀ a ∈ front, a.IsConcrete) (ha : ¬ atom.IsConcrete) (hn : NoProperPrefix front text) :
    pattern.SettledAt states.toList ↔ ¬ Matches front text := by
  constructor
  · intro hc hm
    have hget : pattern.atoms[front.length]? = some atom := by simp [hp]
    exact ha (hc _ (h.mem_of_matches hp hm) atom (get_natCast_eq_ok_iff.2 hget))
  · intro hm state hs found hg
    obtain ⟨k, rfl, hk, he⟩ := (h state).1 hs
    have hfound := get_natCast_eq_ok_iff.1 hg
    rcases Nat.lt_or_ge k front.length with hlt | hge
    · rw [hp, List.getElem?_append_left hlt] at hfound
      exact hf found (List.mem_of_getElem? hfound)
    · have hdepth : front.length ≤ pattern.depth k := Nat.le_trans hge (pattern.le_depth k)
      rw [enteredAt, hp, List.take_append, List.take_of_length_le hdepth] at he
      obtain ⟨first, hpre, hfirst⟩ := he.exists_prefix
      rw [hn first hpre hfirst] at hfirst
      exact absurd hfirst hm

/-- After the empty set the atoms before the abstract one match nothing more. -/
theorem noProperPrefix_of_empty (h : pattern.Tracks ∅ text)
    (hp : pattern.atoms = front ++ atom :: back) (hn : NoProperPrefix front text) (rest : Text) :
    NoProperPrefix front (text ++ rest) := by
  intro first hpre hm
  rcases List.prefix_or_prefix_of_prefix hpre (List.prefix_append text rest) with
    hshort | ⟨more, rfl⟩
  · rw [hn first hshort hm] at hm
    exact absurd (h.mem_of_matches hp hm) (StateSet.not_mem_empty _)
  · exact absurd ((h.append_of_empty more).mem_of_matches hp hm) (StateSet.not_mem_empty _)

/-- The automaton gets to the abstract atom, and fails there, exactly if the atoms before it match a
proper prefix of the text. -/
theorem follow_cases (h : pattern.Tracks states text) (hp : pattern.atoms = front ++ atom :: back)
    (hf : ∀ a ∈ front, a.IsConcrete) (ha : ¬ atom.IsConcrete) (hn : NoProperPrefix front text)
    (rest : Text) :
    (¬ NoProperPrefix front (text ++ rest) ∧
      (Parsed.valid pattern).follow states rest = .error .undecided) ∨
    (NoProperPrefix front (text ++ rest) ∧
      ∃ reached, (Parsed.valid pattern).follow states rest = .ok reached ∧
        (pattern.final ∈ reached ↔ Matches pattern.atoms (text ++ rest))) := by
  -- on what is left of the text; what has been read has no proper prefix that is matched
  induction rest generalizing states text with
  | nil =>
      rw [List.append_nil]
      exact Or.inr ⟨hn, states, rfl, h.final_mem_iff⟩
  | cons c rest ih =>
      rw [Parsed.follow]
      by_cases hm : Matches front text
      · have hc : ¬ pattern.SettledAt states.toList :=
          fun hc => (h.settledAt_iff hp hf ha hn).1 hc hm
        rw [Parsed.successors_of_not_settledAt hc [c] h.isState]
        exact Or.inl ⟨hm.not_noProperPrefix c rest, rfl⟩
      · obtain ⟨next, hnext, htracks⟩ := h.next ((h.settledAt_iff hp hf ha hn).2 hm) c
        have hlater : NoProperPrefix front (text ++ [c]) := noProperPrefix_concat_iff.2 ⟨hn, hm⟩
        have hsplit : text ++ c :: rest = (text ++ [c]) ++ rest := by simp
        rw [hnext, hsplit]
        cases he : next.isEmpty with
        | true =>
            -- no state is left, so the rest of the text does not get to the abstract atom either
            obtain rfl := StateSet.eq_empty_of_isEmpty he
            exact Or.inr ⟨htracks.noProperPrefix_of_empty hp hlater rest, ∅, rfl,
              iff_of_false (StateSet.not_mem_empty _) (htracks.not_matches_of_empty rest)⟩
        | false => simpa [he] using ih htracks hlater

end Pattern.Tracks

/-- The automaton fails where the atoms before the abstract one match a proper prefix of the text;
otherwise it decides as if that atom could only be left out. -/
theorem Automaton.start_accepts_cases (hp : pattern.atoms = front ++ atom :: back)
    (hf : ∀ a ∈ front, a.IsConcrete) (ha : ¬ atom.IsConcrete) (text : Text) :
    (¬ NoProperPrefix front text ∧
      ((start (.valid pattern)).accepts (.text text)).1 = .error .undecided) ∨
    (NoProperPrefix front text ∧
      ∃ matched, ((start (.valid pattern)).accepts (.text text)).1 = .ok matched ∧
        (matched = true ↔ Matches front text ∧ ∀ a ∈ atom :: back, a.repeatable = true)) := by
  obtain ⟨first, hfirst, htracks⟩ := pattern.closure_start
  rw [start_accepts_fst hfirst (Source.toText_text text)]
  rcases htracks.follow_cases hp hf ha (noProperPrefix_nil front) text with
    ⟨hn, hfollow⟩ | ⟨hn, reached, hfollow, hfinal⟩
  · exact Or.inl ⟨hn, by rw [hfollow]; rfl⟩
  · refine Or.inr ⟨hn, decide (pattern.final ∈ reached), by rw [hfollow]; rfl, ?_⟩
    rw [List.nil_append] at hn hfinal
    rw [decide_eq_true_iff, hfinal, hp, hn.matches_append_iff]

/-! ### Both engines -/

/-- The engines differ where the abstract atom is met at the very end of the text: the table asks it
and fails, while the automaton has no character left to ask it about. -/
theorem differ_or_agree (hp : pattern.atoms = front ++ atom :: back)
    (hf : ∀ a ∈ front, a.IsConcrete) (ha : ¬ atom.IsConcrete) (text : Text) :
    ((text ≠ [] ∧ Matches front text ∧ NoProperPrefix front text) ∧
      Table.accepts (.valid pattern) (.text text) = .error .undecided ∧
      ∃ matched, ((Automaton.start (.valid pattern)).accepts (.text text)).1 = .ok matched) ∨
    (¬ (text ≠ [] ∧ Matches front text ∧ NoProperPrefix front text) ∧
      Table.accepts (.valid pattern) (.text text) =
        ((Automaton.start (.valid pattern)).accepts (.text text)).1) := by
  rcases Table.accepts_cases hp hf ha text with ⟨⟨ht, hm⟩, htable⟩ | ⟨hm, matched, htable, hiff⟩
  · rcases Automaton.start_accepts_cases hp hf ha text with ⟨hn, hfollow⟩ | ⟨hn, found, hfollow, -⟩
    · exact Or.inr ⟨fun h => hn h.2.2, htable.trans hfollow.symm⟩
    · obtain ⟨first, hpre, hfirst⟩ := hm
      rw [hn first hpre hfirst] at hfirst
      exact Or.inl ⟨⟨ht, hfirst, hn⟩, htable, found, hfollow⟩
  · have hnone : NoProperPrefix front text := by
      intro first hpre hfirst
      by_cases ht : text = []
      · rw [ht] at hpre ⊢
        exact List.prefix_nil.1 hpre
      · exact absurd ⟨ht, first, hpre, hfirst⟩ hm
    rcases Automaton.start_accepts_cases hp hf ha text with
      ⟨hn, -⟩ | ⟨-, found, hfollow, hiff'⟩
    · exact absurd hnone hn
    · refine Or.inr ⟨fun h => hm ⟨h.1, text, List.prefix_rfl, h.2.1⟩, ?_⟩
      rw [htable, hfollow, Bool.eq_iff_iff.2 (hiff.trans hiff'.symm)]

/-- **Both engines at an abstract atom.**  For every pattern that has one, every history of its
automaton and every text: the table fails exactly if the text is not empty and one of its prefixes,
the text included, is matched by the atoms before the first abstract one; the automaton fails
exactly if a prefix that is shorter than the text is matched by them.  Where the automaton decides,
it is for the text exactly if these atoms match all of it and every atom from the abstract one on is
repeatable.  Where the table decides, the automaton decides alike.  So the engines differ exactly if
the text is not empty and is the only one of its prefixes that these atoms match, whatever atoms
follow. -/
theorem engines_at_an_abstract_atom (h : ¬ pattern.IsConcrete)
    (history : List Automaton.Request) (text : Text) :
    (Table.accepts (.valid pattern) (.text text) = .error .undecided ↔
      text ≠ [] ∧ ∃ first, first <+: text ∧ Matches pattern.settled first) ∧
    ((((Automaton.start (.valid pattern)).after history).accepts (.text text)).1 =
        .error .undecided ↔
      ∃ first, first <+: text ∧ first ≠ text ∧ Matches pattern.settled first) ∧
    ((((Automaton.start (.valid pattern)).after history).accepts (.text text)).1 ≠
        .error .undecided →
      ∃ matched,
        (((Automaton.start (.valid pattern)).after history).accepts (.text text)).1 =
          .ok matched ∧
        (matched = true ↔ Matches pattern.settled text ∧
          ∀ a ∈ pattern.unsettled, a.repeatable = true)) ∧
    (Table.accepts (.valid pattern) (.text text) ≠ .error .undecided →
      ∃ matched, Table.accepts (.valid pattern) (.text text) = .ok matched ∧
        (((Automaton.start (.valid pattern)).after history).accepts (.text text)).1 =
          .ok matched) ∧
    (Table.accepts (.valid pattern) (.text text) ≠
        (((Automaton.start (.valid pattern)).after history).accepts (.text text)).1 ↔
      text ≠ [] ∧ Matches pattern.settled text ∧
        ∀ first, first <+: text → Matches pattern.settled first → first = text) := by
  obtain ⟨atom, back, hu, ha⟩ := Pattern.exists_unsettled h
  have hp : pattern.atoms = pattern.settled ++ atom :: back := by
    rw [← hu, pattern.settled_append_unsettled]
  have hf := pattern.settled_isConcrete
  have hhistory : (((Automaton.start (.valid pattern)).after history).accepts (.text text)).1 =
      ((Automaton.start (.valid pattern)).accepts (.text text)).1 := by
    rw [Automaton.accepts_congr, Automaton.after_pattern]
    rfl
  have htable := Table.accepts_cases hp hf ha text
  have hfollow := Automaton.start_accepts_cases hp hf ha text
  have hboth := differ_or_agree hp hf ha text
  rw [hhistory, hu, ← not_noProperPrefix_iff]
  refine ⟨?_, ?_, ?_, ?_, ?_⟩
  · rcases htable with ⟨hm, he⟩ | ⟨hm, matched, he, -⟩
    · exact iff_of_true he hm
    · exact iff_of_false (by simp [he]) hm
  · rcases hfollow with ⟨hn, he⟩ | ⟨hn, matched, he, -⟩
    · exact iff_of_true he hn
    · exact iff_of_false (by simp [he]) (not_not_intro hn)
  · intro hne
    rcases hfollow with ⟨-, he⟩ | ⟨-, hdecided⟩
    · exact absurd he hne
    · exact hdecided
  · intro hne
    rcases htable with ⟨-, he⟩ | ⟨-, matched, he, -⟩
    · exact absurd he hne
    · rcases hboth with ⟨-, hfault, -⟩ | ⟨-, hsame⟩
      · exact absurd hfault hne
      · exact ⟨matched, he, hsame.symm.trans he⟩
  · rcases hboth with ⟨hlast, hfault, matched, hdecided⟩ | ⟨hnot, hsame⟩
    · exact iff_of_true (by simp [hfault, hdecided]) hlast
    · exact iff_of_false (not_not_intro hsame) hnot

/-- A repeatable abstract atom behind a literal.  At the end of the text only the table asks it, and
the automaton leaves it out; in the midst of a text both fail. -/
theorem engines_at_a_repeatable_abstract_atom :
    Table.accepts (.valid ⟨[.literal 'a' false, ⟨.abstract, true⟩, .literal 'b' true]⟩)
        (.text ['a']) = .error .undecided ∧
      ((Automaton.start
        (.valid ⟨[.literal 'a' false, ⟨.abstract, true⟩, .literal 'b' true]⟩)).accepts
          (.text ['a'])).1 = .ok true ∧
      ((Automaton.start
        (.valid ⟨[.literal 'a' false, ⟨.abstract, true⟩, .literal 'b' true]⟩)).accepts
          (.text ['a', 'b'])).1 = .error .undecided := by
  have hall := @engines_at_an_abstract_atom
    ⟨[.literal 'a' false, ⟨.abstract, true⟩, .literal 'b' true]⟩ (by decide) []
  have hm : Matches [.literal 'a' false] ['a'] := Matches.one rfl rfl Matches.nil
  obtain ⟨htable, hfails, hdecides, -, -⟩ := hall ['a']
  refine ⟨htable.2 ⟨by decide, ['a'], List.prefix_rfl, hm⟩, ?_, ?_⟩
  · obtain ⟨matched, hmatched, hiff⟩ := hdecides fun hfault => by
      obtain ⟨first, hpre, hne, hfirst⟩ := hfails.1 hfault
      have hcases : first = [] ++ ['a'] ∨ first <+: [] := List.prefix_concat_iff.1 hpre
      rcases hcases with rfl | hnil
      · exact hne rfl
      · rw [List.prefix_nil.1 hnil] at hfirst
        exact absurd (Matches.nil_right_iff.1 hfirst) (by decide)
    rw [hiff.2 ⟨hm, by decide⟩] at hmatched
    exact hmatched
  · obtain ⟨-, hfails, -⟩ := hall ['a', 'b']
    exact hfails.2 ⟨['a'], by decide, by decide, hm⟩

end StarPattern
