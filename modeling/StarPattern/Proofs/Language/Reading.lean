/-
**What is read, and where reading stops.**

A text is no pattern exactly if one of its markers has nothing to repeat: it is the first character,
or another marker is right before it.  The least such column is the one that is reported.  In a text
without such a marker the atoms are the other characters in order, each repeatable if a marker
follows it.  The reader that goes through a text with a cursor, without looking ahead, comes to the
same result; what it keeps is that the atoms so far are written as the text so far.

Main definitions:

* `StarPattern.Language.Misplaced`, `StarPattern.Language.FirstMisplaced` — a marker in this column
  has nothing to repeat, and none before it is of that kind;
* `StarPattern.Language.atomCount` — how many characters of a text are atoms.

Main results:

* `StarPattern.Language.readFrom_eq_error_iff` — **the first misplaced marker** is reported;
* `StarPattern.Language.readFrom_describes` — the atoms of a text by their positions;
* `StarPattern.Language.readAlong_start` — **reading step by step** along a cursor;
* `StarPattern.Language.parse_by_positions` — all of it together.
-/
import StarPattern.Language.Stepwise
import StarPattern.Proofs.Language.RoundTrip

set_option relaxedAutoImplicit false
set_option autoImplicit false

namespace StarPattern

namespace Language

variable {language : Language} {atom : Atom} {atoms front back : List Atom} {c : Char}
variable {text rest done first second : Text} {column i j : Nat}

/-- A text is empty, or begins with a marker, or with a character that has a marker behind it, or
with a character that has none. -/
@[elab_as_elim] theorem reading_induction (language : Language) {motive : Text → Prop}
    (nil : motive [])
    (marker : ∀ rest, motive (language.zeroOrMore :: rest))
    (repeated : ∀ c rest, c ≠ language.zeroOrMore → motive rest →
      motive (c :: language.zeroOrMore :: rest))
    (plain : ∀ c rest, c ≠ language.zeroOrMore → rest.head? ≠ some language.zeroOrMore →
      motive rest → motive (c :: rest)) :
    ∀ text, motive text
  | [] => nil
  | c :: rest => by
      by_cases hc : c = language.zeroOrMore
      · subst hc
        exact marker rest
      · match rest with
        | [] => exact plain c [] hc (by simp) nil
        | d :: rest =>
            by_cases hd : d = language.zeroOrMore
            · subst hd
              exact repeated c rest hc (reading_induction language nil marker repeated plain rest)
            · exact plain c (d :: rest) hc (by simpa using hd)
                (reading_induction language nil marker repeated plain (d :: rest))

/-! ### Misplaced markers -/

/-- The character in this column is a marker, and nothing or another marker is right before it. -/
def Misplaced (language : Language) (text : Text) (i : Nat) : Prop :=
  text[i]? = some language.zeroOrMore ∧ (i = 0 ∨ text[i - 1]? = some language.zeroOrMore)

/-- The marker in this column is the first one that is misplaced. -/
def FirstMisplaced (language : Language) (text : Text) (i : Nat) : Prop :=
  language.Misplaced text i ∧ ∀ j < i, ¬ language.Misplaced text j

instance (language : Language) (text : Text) (i : Nat) : Decidable (language.Misplaced text i) :=
  inferInstanceAs (Decidable (_ ∧ _))

instance (language : Language) (text : Text) (i : Nat) :
    Decidable (language.FirstMisplaced text i) :=
  inferInstanceAs (Decidable (_ ∧ ∀ j < i, ¬ language.Misplaced text j))

theorem not_misplaced_nil : ¬ language.Misplaced [] i := by
  simp [Misplaced]

theorem misplaced_cons_zero_iff :
    language.Misplaced (c :: rest) 0 ↔ c = language.zeroOrMore := by
  simp [Misplaced]

theorem misplaced_cons_succ_iff :
    language.Misplaced (c :: rest) (i + 1) ↔
      rest[i]? = some language.zeroOrMore ∧ (c :: rest)[i]? = some language.zeroOrMore := by
  simp [Misplaced]

/-- Before a column, whether a marker is misplaced does not depend on what comes later. -/
theorem misplaced_append_iff (hi : i < first.length) :
    language.Misplaced (first ++ second) i ↔ language.Misplaced first i := by
  have hpred : i - 1 < first.length := by omega
  rw [Misplaced, Misplaced, List.getElem?_append_left hi, List.getElem?_append_left hpred]

/-- Behind a repeatable atom the text begins anew. -/
theorem misplaced_repeated_iff (hc : c ≠ language.zeroOrMore) :
    language.Misplaced (c :: language.zeroOrMore :: rest) i ↔
      ∃ j, i = j + 2 ∧ language.Misplaced rest j := by
  -- The marker in column 1 has `c` before it.  In column 2 any marker is misplaced, both here,
  -- where it is the second in a row, and at the front of `rest`.
  match i with
  | 0 => simp [misplaced_cons_zero_iff, hc]
  | 1 => simp [misplaced_cons_succ_iff, hc]
  | 2 => simp [Misplaced]
  | i + 3 => simp [Misplaced]

/-- Behind an atom that is not repeatable the text begins anew. -/
theorem misplaced_plain_iff (hc : c ≠ language.zeroOrMore)
    (hr : rest.head? ≠ some language.zeroOrMore) :
    language.Misplaced (c :: rest) i ↔ ∃ j, i = j + 1 ∧ language.Misplaced rest j := by
  match i with
  | 0 => simp [misplaced_cons_zero_iff, hc]
  | 1 =>
      rw [List.head?_eq_getElem?] at hr
      simp [Misplaced, hr]
  | i + 2 => simp [Misplaced]

theorem firstMisplaced_marker_iff :
    language.FirstMisplaced (language.zeroOrMore :: rest) i ↔ i = 0 := by
  have hzero : language.Misplaced (language.zeroOrMore :: rest) 0 := misplaced_cons_zero_iff.2 rfl
  constructor
  · rintro ⟨-, hleast⟩
    exact Nat.eq_zero_of_not_pos fun hi => hleast 0 hi hzero
  · rintro rfl
    exact ⟨hzero, fun j hj => absurd hj (Nat.not_lt_zero j)⟩

/-- The first misplaced marker of a text is that of the text after some columns, if all misplaced
markers are there. -/
theorem firstMisplaced_shift {width : Nat}
    (h : ∀ i, language.Misplaced text i ↔ ∃ j, i = j + width ∧ language.Misplaced rest j) :
    language.FirstMisplaced text i ↔ ∃ j, i = j + width ∧ language.FirstMisplaced rest j := by
  constructor
  · rintro ⟨hi, hleast⟩
    obtain ⟨j, rfl, hj⟩ := (h i).1 hi
    refine ⟨j, rfl, hj, fun k hk hmis => ?_⟩
    exact hleast (k + width) (by omega) ((h _).2 ⟨k, rfl, hmis⟩)
  · rintro ⟨j, rfl, hj, hleast⟩
    refine ⟨(h _).2 ⟨j, rfl, hj⟩, fun k hk hmis => ?_⟩
    obtain ⟨l, rfl, hl⟩ := (h k).1 hmis
    exact hleast l (by omega) hl

theorem exists_firstMisplaced (h : language.Misplaced text i) :
    ∃ j, language.FirstMisplaced text j := by
  induction i using Nat.strongRecOn with
  | ind i ih =>
      by_cases hearlier : ∃ j, j < i ∧ language.Misplaced text j
      · obtain ⟨j, hj, hmis⟩ := hearlier
        exact ih j hj hmis
      · exact ⟨i, h, fun j hj hmis => hearlier ⟨j, hj, hmis⟩⟩

/-- **The first misplaced marker is reported**, and only that. -/
theorem readFrom_eq_error_iff :
    language.readFrom column text = .error i ↔
      ∃ j, i = column + j ∧ language.FirstMisplaced text j := by
  induction text using reading_induction language generalizing column with
  | nil => simp [readFrom, FirstMisplaced, not_misplaced_nil]
  | marker rest => simp [readFrom_marker, firstMisplaced_marker_iff, eq_comm]
  | repeated c rest hc ih =>
      rw [readFrom_repeated hc, map_eq_error_iff, ih]
      simp only [firstMisplaced_shift fun i => misplaced_repeated_iff hc]
      constructor
      · rintro ⟨j, rfl, hj⟩
        exact ⟨j + 2, by omega, j, rfl, hj⟩
      · rintro ⟨k, rfl, j, rfl, hj⟩
        exact ⟨j, by omega, hj⟩
  | plain c rest hc hr ih =>
      rw [readFrom_plain hc column hr, map_eq_error_iff, ih]
      simp only [firstMisplaced_shift fun i => misplaced_plain_iff hc hr]
      constructor
      · rintro ⟨j, rfl, hj⟩
        exact ⟨j + 1, by omega, j, rfl, hj⟩
      · rintro ⟨k, rfl, j, rfl, hj⟩
        exact ⟨j, by omega, hj⟩

theorem read_eq_error_iff : language.read text = .error i ↔ language.FirstMisplaced text i := by
  simp [read, readFrom_eq_error_iff]

theorem parse_of_firstMisplaced (h : language.FirstMisplaced text i) :
    language.parse text = .error (language.rejection text i) :=
  parse_of_misread (read_eq_error_iff.2 h)

/-- A rejection is about the first misplaced marker. -/
theorem exists_firstMisplaced_of_rejected {rejection : Rejection}
    (h : language.parse text = .error rejection) :
    ∃ i, language.FirstMisplaced text i ∧ rejection = language.rejection text i := by
  cases hr : language.read text with
  | error i =>
      rw [parse_of_misread hr] at h
      exact ⟨i, read_eq_error_iff.1 hr, (Except.error.inj h).symm⟩
  | ok atoms =>
      rw [parse_of_read hr] at h
      cases h

theorem exists_parse_iff :
    (∃ pattern, language.parse text = .ok pattern) ↔ ¬ ∃ i, language.Misplaced text i := by
  constructor
  · rintro ⟨pattern, hp⟩ ⟨i, hi⟩
    obtain ⟨j, hj⟩ := exists_firstMisplaced hi
    rw [parse_of_firstMisplaced hj] at hp
    cases hp
  · intro h
    cases hr : language.read text with
    | error j => exact absurd ⟨j, (read_eq_error_iff.1 hr).1⟩ h
    | ok atoms => exact ⟨⟨atoms⟩, parse_of_read hr⟩

/-! ### The atoms of a text -/

/-- The number of characters that are not markers. -/
def atomCount (language : Language) (text : Text) : Nat :=
  text.countP fun c => c ≠ language.zeroOrMore

theorem atomCount_nil : language.atomCount [] = 0 := rfl

theorem atomCount_marker :
    language.atomCount (language.zeroOrMore :: rest) = language.atomCount rest := by
  simp [atomCount]

theorem atomCount_cons (hc : c ≠ language.zeroOrMore) :
    language.atomCount (c :: rest) = language.atomCount rest + 1 := by
  simp [atomCount, hc]

/-- The atoms are those of a text if there is one for each character that is not a marker, in the
same order, and it is repeatable if a marker is right behind the character. -/
def Describes (language : Language) (atoms : List Atom) (text : Text) : Prop :=
  atoms.length = language.atomCount text ∧
    ∀ i c, text[i]? = some c → c ≠ language.zeroOrMore →
      atoms[language.atomCount (text.take i)]? =
        some (language.atomFor c (text[i + 1]? = some language.zeroOrMore))

theorem describes_nil : language.Describes [] [] := by
  simp [Describes, atomCount_nil]

theorem Describes.repeated (h : language.Describes atoms rest) (hc : c ≠ language.zeroOrMore) :
    language.Describes (language.atomFor c true :: atoms) (c :: language.zeroOrMore :: rest) := by
  refine ⟨by rw [List.length_cons, atomCount_cons hc, atomCount_marker, h.1], fun i d hd hne => ?_⟩
  match i with
  | 0 =>
      obtain rfl : c = d := by simpa using hd
      simp [atomCount_nil]
  | 1 =>
      obtain rfl : language.zeroOrMore = d := by simpa using hd
      exact absurd rfl hne
  | i + 2 =>
      rw [List.take_succ_cons, List.take_succ_cons, atomCount_cons hc, atomCount_marker]
      simpa using h.2 i d (by simpa using hd) hne

theorem Describes.plain (h : language.Describes atoms rest) (hc : c ≠ language.zeroOrMore)
    (hr : rest.head? ≠ some language.zeroOrMore) :
    language.Describes (language.atomFor c false :: atoms) (c :: rest) := by
  refine ⟨by rw [List.length_cons, atomCount_cons hc, h.1], fun i d hd hne => ?_⟩
  match i with
  | 0 =>
      obtain rfl : c = d := by simpa using hd
      rw [List.head?_eq_getElem?] at hr
      simp [atomCount_nil, hr]
  | i + 1 =>
      rw [List.take_succ_cons, atomCount_cons hc]
      simpa using h.2 i d (by simpa using hd) hne

/-- **The atoms that are read** are those of the text. -/
theorem readFrom_describes (h : language.readFrom column text = .ok atoms) :
    language.Describes atoms text := by
  induction text using reading_induction language generalizing column atoms with
  | nil =>
      obtain rfl : [] = atoms := Except.ok.inj h
      exact describes_nil
  | marker rest =>
      rw [readFrom_marker] at h
      cases h
  | repeated c rest hc ih =>
      rw [readFrom_repeated hc] at h
      obtain ⟨later, hl, rfl⟩ := map_eq_ok_iff.1 h
      exact (ih hl).repeated hc
  | plain c rest hc hr ih =>
      rw [readFrom_plain hc column hr] at h
      obtain ⟨later, hl, rfl⟩ := map_eq_ok_iff.1 h
      exact (ih hl).plain hc hr

/-! ### Reading step by step -/

theorem writeAtoms_append_eq_ok_iff :
    language.writeAtoms (front ++ back) = .ok text ↔
      ∃ first second, language.writeAtoms front = .ok first ∧
        language.writeAtoms back = .ok second ∧ text = first ++ second := by
  induction front generalizing text with
  | nil => simp [writeAtoms]
  | cons atom front ih =>
      simp only [List.cons_append, writeAtoms_cons_eq_ok_iff, ih]
      constructor
      · rintro ⟨c, -, hc, ⟨first, second, hf, hs, rfl⟩, rfl⟩
        exact ⟨_, second, ⟨c, first, hc, hf, rfl⟩, hs, by simp⟩
      · rintro ⟨-, second, ⟨c, first, hc, hf, rfl⟩, hs, rfl⟩
        exact ⟨c, first ++ second, hc, ⟨first, second, hf, hs, rfl⟩, by simp⟩

theorem writeAtoms_singleton_eq_ok_iff :
    language.writeAtoms [atom] = .ok text ↔
      ∃ c, language.sign atom = .ok c ∧ text = c :: language.marker atom := by
  rw [writeAtoms_cons_eq_ok_iff]
  constructor
  · rintro ⟨c, later, hc, hl, rfl⟩
    obtain rfl : [] = later := Except.ok.inj hl
    exact ⟨c, hc, by rw [List.append_nil]⟩
  · rintro ⟨c, hc, rfl⟩
    exact ⟨c, [], hc, rfl, by rw [List.append_nil]⟩

theorem writeAtoms_concat_eq_ok_iff :
    language.writeAtoms (atoms ++ [atom]) = .ok text ↔
      ∃ first c, language.writeAtoms atoms = .ok first ∧ language.sign atom = .ok c ∧
        text = first ++ c :: language.marker atom := by
  simp only [writeAtoms_append_eq_ok_iff, writeAtoms_singleton_eq_ok_iff]
  constructor
  · rintro ⟨first, -, hf, ⟨c, hc, rfl⟩, rfl⟩
    exact ⟨first, c, hf, hc, rfl⟩
  · rintro ⟨first, c, hf, hc, rfl⟩
    exact ⟨first, _, hf, ⟨c, hc, rfl⟩, rfl⟩

theorem asRepeatable_of_sign (h : language.sign atom = .ok c) :
    atom.asRepeatable = .ok { atom with repeatable := true } := by
  rcases atom with ⟨kind, repeatable⟩
  cases kind with
  | wildcard => rfl
  | literal d => rfl
  | abstract => simp [sign] at h

/-- The sign of an atom does not depend on its mark. -/
theorem sign_marked (h : language.sign atom = .ok c) :
    language.sign { atom with repeatable := true } = .ok c := by
  rcases atom with ⟨kind, repeatable⟩
  cases kind with
  | wildcard => exact h
  | literal d => exact h
  | abstract => simp [sign] at h

theorem refusal_between_concat (first : Text) (c : Char) (second reason : Text) :
    (Cursor.between (first ++ [c]) second).refusal reason =
      .rejected ⟨reason, some ((first ++ c :: second).mark first.length)⟩ := by
  rw [Cursor.refusal, Cursor.caretAt_between_concat]

/-- A marker at the very front is misplaced, and it finds no atom to go to. -/
theorem repeatLatest_nil (rest : Text) :
    language.repeatLatest (.between [language.zeroOrMore] rest) [] =
      .error (.rejected (language.rejection (language.zeroOrMore :: rest) 0)) := by
  have hrefusal := refusal_between_concat [] language.zeroOrMore rest
  simp only [List.nil_append, List.length_nil] at hrefusal
  simp [repeatLatest, hrefusal, rejection, reason]

/-- A marker behind a repeatable atom is misplaced, since the atom is written with a marker. -/
theorem repeatLatest_of_repeatable (hr : atom.repeatable = true) (hd : done ≠ []) (rest : Text) :
    language.repeatLatest (.between (done ++ [language.zeroOrMore]) rest) (atoms ++ [atom]) =
      .error (.rejected
        (language.rejection (done ++ language.zeroOrMore :: rest) done.length)) := by
  have hlength : done.length ≠ 0 := by simpa using hd
  simp [repeatLatest, hr, refusal_between_concat, rejection, reason, hlength]

theorem repeatLatest_of_plain (hr : atom.repeatable = false) (hs : language.sign atom = .ok c)
    (cursor : Cursor) :
    language.repeatLatest cursor (atoms ++ [atom]) =
      .ok (atoms ++ [{ atom with repeatable := true }]) := by
  simp only [repeatLatest, List.getLast?_concat, hr, Bool.false_eq_true, if_false,
    asRepeatable_of_sign hs, List.dropLast_concat]
  rfl

/-- **One step.**  If the atoms so far are written as the text so far, then this is so after the
next character, or that character is a misplaced marker and the text is rejected there. -/
theorem takeIn_cases (h : language.writeAtoms atoms = .ok done) (c : Char) (rest : Text) :
    (∃ next, language.takeIn (.between (done ++ [c]) rest) atoms c = .ok next ∧
      language.writeAtoms next = .ok (done ++ [c])) ∨
    (language.Misplaced (done ++ c :: rest) done.length ∧
      language.takeIn (.between (done ++ [c]) rest) atoms c =
        .error (.rejected (language.rejection (done ++ c :: rest) done.length))) := by
  by_cases hc : c = language.zeroOrMore
  · subst hc
    simp only [takeIn, if_true]
    -- The marker goes to the latest atom, so the atoms are taken apart at their end.
    rcases List.eq_nil_or_concat atoms with rfl | ⟨front, latest, hatoms⟩
    · obtain rfl : [] = done := Except.ok.inj h
      exact Or.inr ⟨misplaced_cons_zero_iff.2 rfl, repeatLatest_nil rest⟩
    · obtain rfl : atoms = front ++ [latest] := by rw [hatoms, List.concat_eq_append]
      obtain ⟨first, d, hf, hd, rfl⟩ := writeAtoms_concat_eq_ok_iff.1 h
      cases hr : latest.repeatable with
      | true =>
          right
          rw [marker_of_repeatable hr]
          refine ⟨?_, repeatLatest_of_repeatable hr (by simp) rest⟩
          simp [Misplaced]
      | false =>
          left
          refine ⟨_, repeatLatest_of_plain hr hd _, ?_⟩
          refine writeAtoms_concat_eq_ok_iff.2 ⟨first, d, hf, sign_marked hd, ?_⟩
          rw [marker_of_plain hr, marker_of_repeatable rfl, List.append_assoc]
          rfl
  · left
    refine ⟨_, if_neg hc, ?_⟩
    exact writeAtoms_concat_eq_ok_iff.2
      ⟨done, c, h, sign_atomFor hc false, by rw [marker_of_plain (atomFor_repeatable ..)]⟩

/-- **The whole run.**  From where the atoms so far are written as the text so far, the reader
comes to the pattern of the whole text, or to its rejection. -/
theorem readAlong_between (h : language.writeAtoms atoms = .ok done) (rest : Text) :
    language.readAlong (.between done rest) atoms =
      (language.parse (done ++ rest)).mapError .rejected := by
  induction rest generalizing done atoms with
  | nil =>
      have hparse : language.parse (done ++ []) = .ok ⟨atoms⟩ := by
        rw [List.append_nil]
        exact parse_eq_ok_iff_write.2 h
      rw [readAlong_of_exhausted (Cursor.next_between_nil done), hparse]
      rfl
  | cons c rest ih =>
      rw [readAlong_of_next (Cursor.next_between_cons done c rest)]
      rcases takeIn_cases h c rest with ⟨next, hnext, hwrite⟩ | ⟨hmis, hreject⟩
      · have hrun := ih hwrite
        rw [List.append_assoc, List.singleton_append] at hrun
        simp only [hnext]
        exact hrun
      · -- What was read so far is a pattern, so no marker is misplaced in it.
        have hnone : ∀ j < done.length, ¬ language.Misplaced (done ++ c :: rest) j := by
          intro j hj hearlier
          have hdone : language.parse done = .ok ⟨atoms⟩ := parse_eq_ok_iff_write.2 h
          exact exists_parse_iff.1 ⟨_, hdone⟩ ⟨j, (misplaced_append_iff hj).1 hearlier⟩
        simp only [hreject, parse_of_firstMisplaced ⟨hmis, hnone⟩]
        rfl

/-- **Reading step by step** comes to the same pattern, or to the same rejection. -/
theorem readAlong_start (language : Language) (text : Text) :
    language.readAlong (.start text) [] = (language.parse text).mapError .rejected := by
  have hempty : language.writeAtoms [] = .ok [] := rfl
  exact readAlong_between hempty text

/-! ### Accepted and rejected texts -/

theorem atomFor_kind (language : Language) (c : Char) (repeatable : Bool) :
    (language.atomFor c repeatable).kind = if c = language.any then .wildcard else .literal c := by
  unfold atomFor
  split <;> rfl

theorem interpret_of_parsed {pattern : Pattern} (h : language.parse text = .ok pattern) :
    language.interpret text = .valid pattern := by
  rw [interpret, h]

theorem interpret_of_rejected {rejection : Rejection} (h : language.parse text = .error rejection) :
    language.interpret text = .invalid := by
  rw [interpret, h]

theorem log_of_parsed {pattern : Pattern} (h : language.parse text = .ok pattern)
    (rep : Repertoire) : language.log rep text = [] := by
  rw [log, h]

theorem log_of_rejected {rejection : Rejection} (h : language.parse text = .error rejection)
    (rep : Repertoire) :
    (language.log rep text).map LogRecord.line =
      ["DEBUG:regex_lite.parser:rejected pattern ".toList ++
        (text.quoted rep ++ (": ".toList ++ rejection.reason))] := by
  rw [log, h]
  rfl

theorem reason_eq_unpreceded_iff :
    language.reason i =
        language.zeroOrMore :: " is not preceded by a repeatable expression".toList ↔
      i = 0 := by
  by_cases hi : i = 0 <;> simp [reason, hi]

theorem reason_eq_doubled_iff :
    language.reason i =
        language.zeroOrMore :: (" is preceded by another ".toList ++ [language.zeroOrMore]) ↔
      0 < i := by
  by_cases hi : i = 0
  · simp [reason, hi]
  · simp [reason, hi, Nat.pos_of_ne_zero hi]

/-- **A text is read by its positions.**  It is accepted exactly if no marker is misplaced.  Then
there is an atom for each character that is not a marker, in the same order, a wildcard for the sign
of any character and else the literal of the character, repeatable exactly if a marker is right
behind, and nothing is reported.  Otherwise the first misplaced marker is the one that is marked,
the reason says whether it is at the front, and one record is reported.  A reader that goes along
with a cursor, without looking ahead, comes to the same result. -/
theorem parse_by_positions (language : Language) (text : Text) :
    ((∃ pattern, language.parse text = .ok pattern) ↔ ¬ ∃ i, language.Misplaced text i) ∧
    (∀ pattern, language.parse text = .ok pattern →
      pattern.length = language.atomCount text ∧
      (∀ i c, text[i]? = some c → c ≠ language.zeroOrMore →
        ∃ atom, pattern.atoms[language.atomCount (text.take i)]? = some atom ∧
          atom.kind = (if c = language.any then .wildcard else .literal c) ∧
          (atom.repeatable = true ↔ text[i + 1]? = some language.zeroOrMore)) ∧
      language.interpret text = .valid pattern ∧
      ∀ rep, language.log rep text = []) ∧
    (∀ i, language.FirstMisplaced text i →
      ∃ rejection, language.parse text = .error rejection ∧
        rejection.marked = some (text ++ '\n' :: (List.replicate i ' ' ++ ['^'])) ∧
        (rejection.reason =
            language.zeroOrMore :: " is not preceded by a repeatable expression".toList ↔ i = 0) ∧
        (rejection.reason =
            language.zeroOrMore :: (" is preceded by another ".toList ++ [language.zeroOrMore]) ↔
          0 < i) ∧
        language.interpret text = .invalid ∧
        ∀ rep, (language.log rep text).map LogRecord.line =
          ["DEBUG:regex_lite.parser:rejected pattern ".toList ++
            (text.quoted rep ++ (": ".toList ++ rejection.reason))]) ∧
    language.readAlong (.start text) [] = (language.parse text).mapError .rejected := by
  refine ⟨exists_parse_iff, ?_, ?_, readAlong_start language text⟩
  · intro pattern hp
    obtain ⟨hlength, hatoms⟩ := readFrom_describes (parse_eq_ok_iff_read.1 hp)
    refine ⟨hlength, ?_, interpret_of_parsed hp, log_of_parsed hp⟩
    intro i c hc hne
    refine ⟨_, hatoms i c hc hne, atomFor_kind .., ?_⟩
    rw [atomFor_repeatable, decide_eq_true_iff]
  · intro i hi
    have hp := parse_of_firstMisplaced hi
    exact ⟨language.rejection text i, hp, rfl, reason_eq_unpreceded_iff, reason_eq_doubled_iff,
      interpret_of_rejected hp, log_of_rejected hp⟩

/-- In the language with the signs exchanged a text is accepted, and another one is rejected at its
second marker in a row; the marker before that one is in its place. -/
theorem parse_of_exchanged_signs :
    (∃ atom, (Pattern.mk [.literal 'a' true, .wildcard false]).atoms[1]? = some atom ∧
      atom.kind = .wildcard ∧ atom.repeatable = false) ∧
    ∃ rejection,
      (Language.mk '*' '.' (by decide)).parse ['*', 'a', '.', '.', '.'] = .error rejection ∧
      rejection.marked = some "*a...\n   ^".toList ∧
      rejection.reason = ". is preceded by another .".toList := by
  obtain ⟨-, haccepted, -, -⟩ := parse_by_positions ⟨'*', '.', by decide⟩ ['a', '.', '*']
  obtain ⟨-, -, hrejected, -⟩ := parse_by_positions ⟨'*', '.', by decide⟩ ['*', 'a', '.', '.', '.']
  constructor
  · obtain ⟨-, hatoms, -⟩ := haccepted ⟨[.literal 'a' true, .wildcard false]⟩ rfl
    obtain ⟨atom, hatom, hkind, hrepeatable⟩ := hatoms 2 '*' rfl (by decide)
    exact ⟨atom, hatom, hkind, by simpa using hrepeatable⟩
  · obtain ⟨rejection, hp, hmarked, -, hreason, -⟩ := hrejected 3 (by decide)
    exact ⟨rejection, hp, hmarked, hreason.2 (by decide)⟩

end Language

end StarPattern
