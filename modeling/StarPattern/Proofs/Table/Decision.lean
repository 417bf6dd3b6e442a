/-
**What the table decides.**

The rows that are computed for a text end at the first one without a match, and none is computed for
the empty text.  Neither makes a difference: the decision is always whether the atoms match the
text.

Main results:

* `StarPattern.Table.Describes.not_matches` — after a row without a match nothing can match;
* `StarPattern.Table.rows_verdict` — the verdict on the rows that are computed;
* `StarPattern.Table.exists_accepts_text` — the decision for a text;
* `StarPattern.accepts_and_decideMatch_iff_matches` — **the decision is the meaning**, for patterns
  and for pattern texts.
-/
import StarPattern.Engine
import StarPattern.Proofs.Table.Rows

set_option relaxedAutoImplicit false
set_option autoImplicit false

namespace StarPattern

namespace Table

variable {atom : Atom} {atoms rest : List Atom} {text : Text} {row : Row} {pattern : Pattern}

/-! ### The rows that are computed -/

/-- **A row without a match** cannot be recovered from. -/
theorem Describes.not_matches (h : Describes row atoms text) (hn : row.any id = false)
    (rest : List Atom) : ¬ Matches (atoms ++ rest) text :=
  h.not_matches_prefix hn List.prefix_rfl rest

/-- A row without a match, if it is the last, is a refusal. -/
theorem Describes.verdict_of_not_any {next : Row} (h : Describes next atoms text)
    (hn : next.any id = false) (row : Row) : verdict row [next] = false := by
  have hlast : verdict row [next] = true ↔ Matches atoms text := by
    simpa [verdict] using h.getLastD_eq_true_iff
  have hnone : ¬ Matches atoms text := by simpa using h.not_matches hn []
  rw [← Bool.not_eq_true, hlast]
  exact hnone

theorem rows_of_any {next : Row} (hr : rowAfter atom row text = .ok next)
    (hn : next.any id = true) :
    rows text row (atom :: rest) = (next :: ·) <$> rows text next rest := by
  rw [rows, hr]
  simp only [bind, Except.bind, hn, if_true]
  cases rows text next rest <;> rfl

theorem rows_of_not_any {next : Row} (hr : rowAfter atom row text = .ok next)
    (hn : next.any id = false) : rows text row (atom :: rest) = .ok [next] := by
  rw [rows, hr]
  simp only [bind, Except.bind, hn, Bool.false_eq_true, if_false]
  rfl

/-- The rows that are computed after a row that says what the atoms before it match decide whether
these atoms with the rest match the text. -/
theorem rows_verdict (h : Describes row atoms text) (hc : ∀ atom ∈ rest, atom.IsConcrete) :
    ∃ computed, rows text row rest = .ok computed ∧
      (verdict row computed = true ↔ Matches (atoms ++ rest) text) := by
  induction rest generalizing row atoms with
  | nil => exact ⟨[], rfl, by simpa [verdict] using h.getLastD_eq_true_iff⟩
  | cons atom rest ih =>
      rw [List.forall_mem_cons] at hc
      obtain ⟨next, hr, hd⟩ := h.next hc.1
      have hsplit : atoms ++ atom :: rest = (atoms ++ [atom]) ++ rest := by simp
      cases hn : next.any id with
      | true =>
          obtain ⟨computed, hrows, hv⟩ := ih hd hc.2
          refine ⟨next :: computed, by rw [rows_of_any hr hn, hrows]; rfl, ?_⟩
          rw [hsplit, ← hv, verdict, verdict, List.getLastD_cons]
      | false =>
          -- this row is the last, and the atoms that are left cannot make up for it
          refine ⟨[next], rows_of_not_any hr hn, ?_⟩
          rw [hsplit, hd.verdict_of_not_any hn]
          exact iff_of_false Bool.false_ne_true (hd.not_matches hn rest)

/-! ### Decisions -/

/-- The empty text is matched where every atom may be left out. -/
theorem nullable_eq_true_iff (pattern : Pattern) :
    pattern.nullable = true ↔ Matches pattern.atoms [] := by
  rw [Matches.nil_right_iff, Pattern.nullable, List.all_eq_true]

theorem accepts_valid (pattern : Pattern) (source : Source) :
    accepts (.valid pattern) source =
      Examination.matched <$> (source.toText >>= examineText pattern) := rfl

theorem accepts_of_error {source : Source} {fault : Fault} (h : source.toText = .error fault) :
    accepts (.valid pattern) source = .error fault := by
  rw [accepts_valid, h]
  rfl

theorem accepts_of_toText {source : Source} (h : source.toText = .ok text) :
    accepts (.valid pattern) source = accepts (.valid pattern) (.text text) := by
  rw [accepts_valid, h]
  rfl

/-- For a text that is not empty the verdict on the rows that are computed decides. -/
theorem examineText_of_rows {computed : List Row} (ht : text ≠ [])
    (h : rows text (firstRow text) pattern.atoms = .ok computed) :
    examineText pattern text = .ok ⟨computed, verdict (firstRow text) computed⟩ := by
  cases text with
  | nil => exact absurd rfl ht
  | cons c later => simp [examineText, h, bind, Except.bind, pure, Except.pure]

/-- A fault in one of the rows is the outcome. -/
theorem examineText_of_error {fault : Fault} (ht : text ≠ [])
    (h : rows text (firstRow text) pattern.atoms = .error fault) :
    examineText pattern text = .error fault := by
  cases text with
  | nil => exact absurd rfl ht
  | cons c later => simp [examineText, h, bind, Except.bind]

/-- For a pattern without abstract atoms there is a decision for every text, and it is whether the
pattern matches it. -/
theorem exists_accepts_text (hc : pattern.IsConcrete) (text : Text) :
    ∃ matched, accepts (.valid pattern) (.text text) = .ok matched ∧
      (matched = true ↔ Matches pattern.atoms text) := by
  cases text with
  | nil => exact ⟨pattern.nullable, rfl, nullable_eq_true_iff pattern⟩
  | cons c later =>
      obtain ⟨computed, hrows, hv⟩ := rows_verdict (firstRow_describes (c :: later)) hc
      have hexamine := examineText_of_rows (List.cons_ne_nil c later) hrows
      exact ⟨_, congrArg (Examination.matched <$> ·) hexamine, hv⟩

end Table

/-! ### Pattern texts -/

theorem decideMatch_text (signs : Text) (source : Source) :
    decideMatch (.text signs) source =
      Table.accepts (Language.standard.interpret signs) source := rfl

/-- A text that is no pattern matches nothing. -/
theorem decideMatch_of_rejected {signs : Text} {rejection : Rejection}
    (h : Language.standard.parse signs = .error rejection) (source : Source) :
    decideMatch (.text signs) source = .ok false := by
  rw [decideMatch_text, Language.interpret, h]
  rfl

theorem decideMatch_of_parsed {signs : Text} {pattern : Pattern}
    (h : Language.standard.parse signs = .ok pattern) (source : Source) :
    decideMatch (.text signs) source = Table.accepts (.valid pattern) source := by
  rw [decideMatch_text, Language.interpret, h]

/-- **The decision is the meaning.**  A character is accepted by wildcards, and by the literal of
it.  For every pattern without abstract atoms and every text the table says whether the atoms match
the text.  For every pattern text and every text the decision is whether the pattern text stands for
a pattern and that pattern matches. -/
theorem accepts_and_decideMatch_iff_matches :
    (∀ (atom : Atom) (c : Char),
      atom.accepts c = true ↔ atom.kind = .wildcard ∨ atom.kind = .literal c) ∧
    (∀ pattern : Pattern, pattern.IsConcrete → ∀ text : Text,
      ∃ matched, Table.accepts (.valid pattern) (.text text) = .ok matched ∧
        (matched = true ↔ Matches pattern.atoms text)) ∧
    (∀ signs text : Text,
      ∃ matched, decideMatch (.text signs) (.text text) = .ok matched ∧
        (matched = true ↔
          ∃ pattern, Language.standard.parse signs = .ok pattern ∧
            Matches pattern.atoms text)) := by
  refine ⟨?_, ?_, ?_⟩
  · intro atom c
    exact Atom.accepts_eq_true_iff
  · intro pattern hc text
    exact Table.exists_accepts_text hc text
  · intro signs text
    cases hp : Language.standard.parse signs with
    | error rejection =>
        exact ⟨false, decideMatch_of_rejected hp (.text text), by simp⟩
    | ok pattern =>
        obtain ⟨matched, hd, hm⟩ :=
          Table.exists_accepts_text (Language.standard.parse_isConcrete hp) text
        refine ⟨matched, by rw [decideMatch_of_parsed hp, hd], ?_⟩
        rw [hm]
        simp

/-- A repeatable literal and a wildcard compete for the characters before a last literal: the text
that ends in it is matched, and the text that does not is not. -/
theorem matches_of_competing_atoms :
    Matches [.literal 'a' true, .wildcard true, .literal 'a' false] ['a', 'b', 'a'] ∧
      ¬ Matches [.literal 'a' true, .wildcard true, .literal 'a' false] ['a', 'b'] := by
  have hdecided := accepts_and_decideMatch_iff_matches.2.1
    ⟨[.literal 'a' true, .wildcard true, .literal 'a' false]⟩ (by decide)
  constructor
  · obtain ⟨matched, hd, hm⟩ := hdecided ['a', 'b', 'a']
    obtain rfl : true = matched := Except.ok.inj hd
    exact hm.1 rfl
  · obtain ⟨matched, hd, hm⟩ := hdecided ['a', 'b']
    obtain rfl : false = matched := Except.ok.inj hd
    intro h
    cases hm.2 h

end StarPattern
