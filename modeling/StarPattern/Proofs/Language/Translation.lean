/-
**From one language to another.**

The same pattern has a text in each language, as long as its literals are not special there.  The
special characters of the two languages may overlap in any way, or be exchanged: what decides is
whether the text of the one language has a literal that the other one would read as a sign or as a
marker.  If it has none, then the text of the other language is made character by character, all
special characters at once, and the way back leads to the text one started with.

Main definitions:

* `StarPattern.Language.Clashes` — a literal of one language that is special in the other;
* `StarPattern.Language.counterpart` — what stands for a character in the other language.

Main results:

* `StarPattern.Language.sign_of_sign` — the sign of an atom in the other language;
* `StarPattern.Language.convert_of_parsed` — **the text in the other language**, or the first clash;
* `StarPattern.Language.convert_preserves_and_reverses` — all of it together.
-/
import StarPattern.Engine
import StarPattern.Proofs.Language.RoundTrip

set_option relaxedAutoImplicit false
set_option autoImplicit false

namespace StarPattern

namespace Language

variable {source target : Language} {atom : Atom} {atoms : List Atom} {c : Char}
variable {text written : Text} {pattern : Pattern} {fault : Fault} {rejection : Rejection}

/-- The character is read as itself in the source, and it is special in the target. -/
def Clashes (source target : Language) (c : Char) : Prop :=
  ¬ source.IsSpecial c ∧ target.IsSpecial c

instance (source target : Language) (c : Char) : Decidable (source.Clashes target c) :=
  inferInstanceAs (Decidable (_ ∧ _))

/-- The character of the target that means what the character means in the source. -/
def counterpart (source target : Language) (c : Char) : Char :=
  if c = source.any then target.any
  else if c = source.zeroOrMore then target.zeroOrMore
  else c

@[simp] theorem counterpart_any : source.counterpart target source.any = target.any := by
  simp [counterpart]

@[simp] theorem counterpart_zeroOrMore :
    source.counterpart target source.zeroOrMore = target.zeroOrMore := by
  simp [counterpart, Ne.symm source.any_ne_zeroOrMore]

theorem counterpart_of_not_isSpecial (h : ¬ source.IsSpecial c) :
    source.counterpart target c = c := by
  rw [IsSpecial, not_or] at h
  simp [counterpart, h.1, h.2]

theorem not_clashes_any : ¬ source.Clashes target source.any := fun h => h.1 (Or.inl rfl)

theorem not_clashes_zeroOrMore : ¬ source.Clashes target source.zeroOrMore :=
  fun h => h.1 (Or.inr rfl)

/-! ### Writing what the source has written -/

/-- **The sign of an atom in the target** is the counterpart of its sign in the source, unless that
is a literal that clashes. -/
theorem sign_of_sign (h : source.sign atom = .ok c) :
    target.sign atom =
      if source.Clashes target c then .error (.writesSpecial c)
      else .ok (source.counterpart target c) := by
  rcases atom with ⟨kind, repeatable⟩
  cases kind with
  | wildcard =>
      obtain rfl : source.any = c := by simpa [sign] using h
      rw [if_neg not_clashes_any, counterpart_any]
      rfl
  | literal d =>
      by_cases hd : source.IsSpecial d
      · simp [sign, hd] at h
      · -- A literal with a sign is not special in the source, so only the target decides.
        obtain rfl : d = c := by simpa [sign, hd] using h
        rw [counterpart_of_not_isSpecial hd]
        by_cases ht : target.IsSpecial d <;> simp [sign, Clashes, hd, ht]
  | abstract => simp [sign] at h

/-- The first literal that clashes. -/
def firstClash? (source target : Language) (text : Text) : Option Char :=
  text.find? fun c => source.Clashes target c

theorem firstClash?_cons (c : Char) (rest : Text) :
    source.firstClash? target (c :: rest) =
      if source.Clashes target c then some c else source.firstClash? target rest := by
  by_cases h : source.Clashes target c <;> simp [firstClash?, h]

theorem firstClash?_marker (atom : Atom) (rest : Text) :
    source.firstClash? target (source.marker atom ++ rest) = source.firstClash? target rest := by
  cases hr : atom.repeatable with
  | true =>
      rw [marker_of_repeatable hr, List.singleton_append, firstClash?_cons,
        if_neg not_clashes_zeroOrMore]
  | false => rw [marker_of_plain hr, List.nil_append]

theorem map_counterpart_marker (atom : Atom) :
    (source.marker atom).map (source.counterpart target) = target.marker atom := by
  cases hr : atom.repeatable with
  | true => simp [marker_of_repeatable hr]
  | false => simp [marker_of_plain hr]

/-- Atoms with a text in the source have the text of its counterparts in the target, unless there is
a clash, and then the first one decides. -/
theorem writeAtoms_of_writeAtoms (h : source.writeAtoms atoms = .ok text) :
    target.writeAtoms atoms =
      match source.firstClash? target text with
      | some c => .error (.writesSpecial c)
      | none => .ok (text.map (source.counterpart target)) := by
  induction atoms generalizing text with
  | nil =>
      obtain rfl : [] = text := Except.ok.inj h
      rfl
  | cons atom atoms ih =>
      obtain ⟨c, later, hsign, hlater, rfl⟩ := writeAtoms_cons_eq_ok_iff.1 h
      have htarget : target.sign atom =
          if source.Clashes target c then .error (.writesSpecial c)
          else .ok (source.counterpart target c) := sign_of_sign hsign
      rw [firstClash?_cons, firstClash?_marker]
      by_cases hc : source.Clashes target c
      · rw [if_pos hc] at htarget ⊢
        exact writeAtoms_cons_of_error htarget atoms
      · rw [if_neg hc] at htarget ⊢
        rw [writeAtoms_cons_of_sign htarget, ih hlater]
        cases source.firstClash? target later with
        | some d => rfl
        | none =>
            rw [List.map_cons, List.map_append, map_counterpart_marker]
            rfl

/-! ### Conversion -/

theorem convert_of_rejected (h : source.parse text = .error rejection) :
    source.convert target text = .error (.rejected rejection) := by
  rw [convert, h]

/-- **The text in the target**, or the first clash. -/
theorem convert_of_parsed (h : source.parse text = .ok pattern) :
    source.convert target text =
      match source.firstClash? target text with
      | some c => .error (.writesSpecial c)
      | none => .ok (text.map (source.counterpart target)) := by
  rw [convert, h]
  exact writeAtoms_of_writeAtoms (parse_eq_ok_iff_write.1 h)

theorem firstClash?_eq_none_iff :
    source.firstClash? target text = none ↔ ∀ c ∈ text, ¬ source.Clashes target c := by
  simp [firstClash?]

theorem firstClash?_eq_some_iff :
    source.firstClash? target text = some c ↔
      ∃ front back, text = front ++ c :: back ∧ source.Clashes target c ∧
        ∀ d ∈ front, ¬ source.Clashes target d := by
  rw [firstClash?, List.find?_eq_some_iff_append]
  constructor
  · rintro ⟨hc, front, back, rfl, hfront⟩
    exact ⟨front, back, rfl, by simpa using hc, by simpa using hfront⟩
  · rintro ⟨front, back, rfl, hc, hfront⟩
    exact ⟨by simpa using hc, front, back, rfl, by simpa using hfront⟩

/-- A text is converted to a text of the same pattern, which makes the way back the same relation
with the languages exchanged. -/
theorem convert_eq_ok_iff :
    source.convert target text = .ok written ↔
      ∃ pattern, source.parse text = .ok pattern ∧ target.parse written = .ok pattern := by
  cases h : source.parse text with
  | error rejection => simp [convert_of_rejected h]
  | ok pattern =>
      rw [convert, h]
      simp [parse_eq_ok_iff_write]

theorem convert_symm (h : source.convert target text = .ok written) :
    target.convert source written = .ok text := by
  obtain ⟨pattern, hsource, htarget⟩ := convert_eq_ok_iff.1 h
  exact convert_eq_ok_iff.2 ⟨pattern, htarget, hsource⟩

theorem exists_convert_iff :
    (∃ written, source.convert target text = .ok written) ↔
      (∃ pattern, source.parse text = .ok pattern) ∧ ∀ c ∈ text, ¬ source.Clashes target c := by
  cases h : source.parse text with
  | error rejection => simp [convert_of_rejected h]
  | ok pattern =>
      rw [convert_of_parsed h, ← firstClash?_eq_none_iff]
      cases source.firstClash? target text <;> simp

theorem eq_map_of_convert (h : source.convert target text = .ok written) :
    written = text.map (source.counterpart target) := by
  obtain ⟨⟨pattern, hp⟩, hclash⟩ := exists_convert_iff.1 ⟨written, h⟩
  rw [convert_of_parsed hp, firstClash?_eq_none_iff.2 hclash] at h
  exact (Except.ok.inj h).symm

theorem convert_eq_error_iff :
    source.convert target text = .error fault ↔
      (∃ rejection, source.parse text = .error rejection ∧ fault = .rejected rejection) ∨
      ((∃ pattern, source.parse text = .ok pattern) ∧
        ∃ c, source.firstClash? target text = some c ∧ fault = .writesSpecial c) := by
  cases h : source.parse text with
  | error rejection => simp [convert_of_rejected h, eq_comm]
  | ok pattern =>
      rw [convert_of_parsed h]
      cases source.firstClash? target text <;> simp [eq_comm]

/-- **Conversion preserves the pattern and can be reversed.**  A text has a counterpart in the
target exactly if it is a pattern and none of its literals is special there.  The counterpart has
the special characters of the target in place of those of the source and is the same otherwise, it
stands for the same pattern, so that every engine decides alike, and it is converted back to the
text.  Without one the rejection of the text decides, or the leftmost literal that clashes. -/
theorem convert_preserves_and_reverses (source target : Language) (text : Text) :
    ((∃ written, source.convert target text = .ok written) ↔
      (∃ pattern, source.parse text = .ok pattern) ∧
        ∀ c ∈ text, c ≠ source.any → c ≠ source.zeroOrMore →
          c ≠ target.any ∧ c ≠ target.zeroOrMore) ∧
    (∀ written, source.convert target text = .ok written →
      written = text.map (fun c =>
        if c = source.any then target.any
        else if c = source.zeroOrMore then target.zeroOrMore
        else c) ∧
      (∃ pattern, source.parse text = .ok pattern ∧ target.parse written = .ok pattern) ∧
      target.interpret written = source.interpret text ∧
      (∀ (engine : Engine) (given : Source), engine.accepts (target.interpret written) given =
        engine.accepts (source.interpret text) given) ∧
      target.convert source written = .ok text) ∧
    (∀ fault, source.convert target text = .error fault ↔
      (∃ rejection, source.parse text = .error rejection ∧ fault = .rejected rejection) ∨
      ((∃ pattern, source.parse text = .ok pattern) ∧
        ∃ front c back, text = front ++ c :: back ∧
          (¬ source.IsSpecial c ∧ target.IsSpecial c) ∧
          (∀ d ∈ front, ¬ (¬ source.IsSpecial d ∧ target.IsSpecial d)) ∧
          fault = .writesSpecial c)) := by
  refine ⟨?_, ?_, ?_⟩
  · rw [exists_convert_iff]
    refine and_congr_right fun _ => forall_congr' fun c => forall_congr' fun _ => ?_
    simp only [Clashes, IsSpecial, not_and, not_or, and_imp]
  · intro written h
    obtain ⟨pattern, hsource, htarget⟩ := convert_eq_ok_iff.1 h
    have hsame : target.interpret written = source.interpret text := by
      rw [interpret, interpret, hsource, htarget]
    refine ⟨eq_map_of_convert h, ⟨pattern, hsource, htarget⟩, hsame, ?_, convert_symm h⟩
    intro engine given
    rw [hsame]
  · intro fault
    rw [convert_eq_error_iff]
    simp only [firstClash?_eq_some_iff, Clashes]
    refine or_congr_right (and_congr_right fun _ => ?_)
    constructor
    · rintro ⟨c, ⟨front, back, htext, hc, hfront⟩, hfault⟩
      exact ⟨front, c, back, htext, hc, hfront, hfault⟩
    · rintro ⟨front, c, back, htext, hc, hfront, hfault⟩
      exact ⟨c, ⟨front, back, htext, hc, hfront⟩, hfault⟩

/-- With the two signs exchanged, a text is converted there and back.  If one sign is new, a literal
stands in the way. -/
theorem convert_of_exchanged_signs :
    (Language.mk '*' '.' (by decide)).convert .standard ['a', '.', '*'] = .ok ['a', '*', '.'] ∧
    Language.standard.convert ⟨'*', '.', by decide⟩ ['a', '*', '.'] = .ok ['a', '.', '*'] ∧
    Language.standard.convert ⟨'*', 'b', by decide⟩ ['a', '.', 'b', '*', 'b'] =
      .error (.writesSpecial 'b') := by
  have hthere : Language.standard.convert ⟨'*', '.', by decide⟩ ['a', '*', '.'] =
      .ok ['a', '.', '*'] := rfl
  obtain ⟨-, hconverted, -⟩ :=
    convert_preserves_and_reverses .standard ⟨'*', '.', by decide⟩ ['a', '*', '.']
  obtain ⟨-, -, herror⟩ :=
    convert_preserves_and_reverses .standard ⟨'*', 'b', by decide⟩ ['a', '.', 'b', '*', 'b']
  obtain ⟨-, -, -, -, hback⟩ := hconverted _ hthere
  refine ⟨hback, hthere, (herror _).2 (Or.inr ⟨⟨_, rfl⟩, ?_⟩)⟩
  refine ⟨['a', '.'], 'b', ['*', 'b'], rfl, by decide, ?_, rfl⟩
  simp [IsSpecial, Language.standard]

end Language

end StarPattern
