/-
**Pattern texts in a row.**

Two pattern texts can be put in a row: the atoms of the whole are those of the first text followed
by those of the second, and what the whole matches can be cut into a text of the one and a text of
the other.  A marker goes to the atom right before it, so no marker of the first text reaches over
the seam, and none of the second does unless it is at the very front.  So a pattern text can be cut
wherever the second part does not begin with a marker.

Main results:

* `StarPattern.Language.parse_append` — **the atoms in a row**;
* `StarPattern.Language.exists_parse_left`, `StarPattern.Language.exists_parse_right_iff` — the
  parts of a pattern text;
* `StarPattern.concatenated_texts_match_in_parts` — all of it, with the decisions of the engines.
-/
import StarPattern.Proofs.Agreement
import StarPattern.Proofs.Language.Reading

set_option relaxedAutoImplicit false
set_option autoImplicit false

namespace StarPattern

namespace Language

variable {language : Language} {first second : Text} {front back whole : Pattern} {i : Nat}

/-! ### The whole and its parts -/

/-- **The atoms in a row** are those of the two texts in a row. -/
theorem parse_append (hf : language.parse first = .ok front)
    (hs : language.parse second = .ok back) :
    language.parse (first ++ second) = .ok ⟨front.atoms ++ back.atoms⟩ := by
  rw [parse_eq_ok_iff_write] at hf hs ⊢
  exact writeAtoms_append_eq_ok_iff.2 ⟨first, second, hf, hs, rfl⟩

/-- Behind the front of the second part, whether a marker is misplaced does not depend on what came
before. -/
theorem misplaced_append_right_iff (hi : 0 < i) :
    language.Misplaced (first ++ second) (first.length + i) ↔ language.Misplaced second i := by
  have hpred : first.length + i - 1 = first.length + (i - 1) := by omega
  have hne : i ≠ 0 := by omega
  simp [Misplaced, hpred, hne, List.getElem?_append_right]

theorem exists_parse_left (h : language.parse (first ++ second) = .ok whole) :
    ∃ front, language.parse first = .ok front := by
  have hnone := exists_parse_iff.1 ⟨whole, h⟩
  rw [exists_parse_iff]
  rintro ⟨i, hi⟩
  have hlt : i < first.length := (List.getElem?_eq_some_iff.1 hi.1).1
  exact hnone ⟨i, (misplaced_append_iff hlt).2 hi⟩

/-- The second part of a pattern text is a pattern text too, unless the cut is before a marker. -/
theorem exists_parse_right_iff (h : language.parse (first ++ second) = .ok whole) :
    (∃ back, language.parse second = .ok back) ↔ second.head? ≠ some language.zeroOrMore := by
  have hnone := exists_parse_iff.1 ⟨whole, h⟩
  have hzero : language.Misplaced second 0 ↔ second.head? = some language.zeroOrMore := by
    simp [Misplaced, List.head?_eq_getElem?]
  rw [exists_parse_iff, ne_eq, ← hzero]
  refine not_congr ⟨?_, fun hz => ⟨0, hz⟩⟩
  rintro ⟨i, hi⟩
  -- Any later marker would be misplaced in the whole as well.
  rcases Nat.eq_zero_or_pos i with rfl | hpos
  · exact hi
  · exact absurd ⟨first.length + i, (misplaced_append_right_iff hpos).2 hi⟩ hnone

end Language

/-! ### Decisions -/

/-- **Pattern texts in a row match in parts.**  In every language, if two texts are accepted then so
is the one followed by the other, with the atoms of the one followed by those of the other; and the
table and the automaton both decide that it matches a text exactly if the text can be cut, with one
part matched by the first pattern text and the other part by the second.  The other way round, if
the whole is accepted then so is the first part, and the second part exactly if it does not begin
with the marker. -/
theorem concatenated_texts_match_in_parts (language : Language) :
    (∀ first second front back, language.parse first = .ok front →
      language.parse second = .ok back →
      language.parse (first ++ second) = .ok ⟨front.atoms ++ back.atoms⟩ ∧
      ∀ engine : Engine, engine ≠ .abstract → ∀ text,
        ∃ matched,
          engine.accepts (language.interpret (first ++ second)) (.text text) = .ok matched ∧
          (matched = true ↔
            ∃ before after, text = before ++ after ∧
              engine.accepts (language.interpret first) (.text before) = .ok true ∧
              engine.accepts (language.interpret second) (.text after) = .ok true)) ∧
    (∀ first second whole, language.parse (first ++ second) = .ok whole →
      (∃ front, language.parse first = .ok front) ∧
      ((∃ back, language.parse second = .ok back) ↔
        second.head? ≠ some language.zeroOrMore)) := by
  refine ⟨?_, fun first second whole h =>
    ⟨Language.exists_parse_left h, Language.exists_parse_right_iff h⟩⟩
  intro first second front back hf hs
  have hwhole := Language.parse_append hf hs
  refine ⟨hwhole, fun engine he text => ?_⟩
  rw [Language.interpret_of_parsed hwhole, Language.interpret_of_parsed hf,
    Language.interpret_of_parsed hs]
  obtain ⟨matched, hm, hiff⟩ :=
    Engine.exists_accepts he (language.parse_isConcrete hwhole) text
  refine ⟨matched, hm, ?_⟩
  rw [hiff, Matches.append_iff]
  simp only [Engine.accepts_eq_ok_true_iff he (language.parse_isConcrete hf),
    Engine.accepts_eq_ok_true_iff he (language.parse_isConcrete hs)]

/-- The seam is between two repeatable atoms, and a text with a character for each of them is cut
there.  Before its first marker the pattern text cannot be cut. -/
theorem cut_between_repeatable_atoms :
    Language.standard.parse ['a', '*', '.', '*', 'b'] =
      .ok ⟨[.literal 'a' true, .wildcard true, .literal 'b' false]⟩ ∧
    (∃ before after, ['a', 'c', 'b'] = before ++ after ∧
      Engine.table.accepts (Language.standard.interpret ['a', '*']) (.text before) = .ok true ∧
      Engine.table.accepts (Language.standard.interpret ['.', '*', 'b']) (.text after) =
        .ok true) ∧
    ¬ ∃ back, Language.standard.parse ['*', '.', '*', 'b'] = .ok back := by
  obtain ⟨hjoined, hparts⟩ := concatenated_texts_match_in_parts .standard
  obtain ⟨hwhole, hdecided⟩ := hjoined ['a', '*'] ['.', '*', 'b'] _ _ rfl rfl
  obtain ⟨matched, hm, hcut⟩ := hdecided .table (by decide) ['a', 'c', 'b']
  obtain rfl : true = matched := Except.ok.inj hm
  refine ⟨hwhole, hcut.1 rfl, fun hback => ?_⟩
  obtain ⟨-, hright⟩ := hparts ['a'] ['*', '.', '*', 'b'] _ hwhole
  exact hright.1 hback rfl

end StarPattern
