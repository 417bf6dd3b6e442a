/-
**Reading and writing are inverse.**

The writer puts the marker behind each repeatable atom, and the reader hands it back to the atom
before it.  This works out since what is written never begins with a marker: so the marker behind an
atom is its own, and an atom without one is not followed by the marker of another.  A text is read
as a pattern exactly if the pattern is written as that text, with the same characters.

Main definitions:

* `StarPattern.Language.CanWrite` — the atom has a sign of its own in the language.

Main results:

* `StarPattern.Language.sign_eq_ok_iff` — the sign of an atom is read as that atom;
* `StarPattern.Language.parse_eq_ok_iff_write` — **a text and its pattern determine each other**;
* `StarPattern.Language.writeAtoms_eq_error_iff` — the first atom without a sign decides;
* `StarPattern.Language.reading_and_writing_are_inverse` — all of it together.
-/
import StarPattern.Language.Writing

set_option relaxedAutoImplicit false
set_option autoImplicit false

namespace StarPattern

namespace Language

variable {language : Language} {atom : Atom} {atoms front back : List Atom} {c : Char}
variable {text : Text} {pattern : Pattern} {fault : Fault} {column : Nat}

/-! ### Signs -/

/-- The atom is not abstract, and it is not the literal of a special character. -/
def CanWrite (language : Language) (atom : Atom) : Prop :=
  match atom.kind with
  | .wildcard => True
  | .literal c => ¬ language.IsSpecial c
  | .abstract => False

theorem sign_atomFor (hc : c ≠ language.zeroOrMore) (repeatable : Bool) :
    language.sign (language.atomFor c repeatable) = .ok c := by
  unfold atomFor
  split
  next h => simp [sign, Atom.wildcard, h]
  next h => simp [sign, Atom.literal, IsSpecial, h, hc]

/-- **The sign of an atom is read as that atom**, and it is never the marker. -/
theorem sign_eq_ok_iff :
    language.sign atom = .ok c ↔
      c ≠ language.zeroOrMore ∧ atom = language.atomFor c atom.repeatable := by
  constructor
  · intro h
    rcases atom with ⟨kind, repeatable⟩
    cases kind with
    | wildcard =>
        obtain rfl : language.any = c := by simpa [sign] using h
        exact ⟨language.any_ne_zeroOrMore, by simp [atomFor, Atom.wildcard]⟩
    | literal d =>
        by_cases hd : language.IsSpecial d
        · simp [sign, hd] at h
        · obtain rfl : d = c := by simpa [sign, hd] using h
          rw [IsSpecial, not_or] at hd
          exact ⟨hd.2, by simp [atomFor, Atom.literal, hd.1]⟩
    | abstract => simp [sign] at h
  · rintro ⟨hc, hatom⟩
    rw [hatom]
    exact sign_atomFor hc _

theorem exists_sign_iff : (∃ c, language.sign atom = .ok c) ↔ language.CanWrite atom := by
  rcases atom with ⟨kind, repeatable⟩
  cases kind with
  | wildcard => simp [sign, CanWrite]
  | literal d => by_cases hd : language.IsSpecial d <;> simp [sign, CanWrite, hd]
  | abstract => simp [sign, CanWrite]

theorem canWrite_iff (hc : atom.IsConcrete) :
    language.CanWrite atom ↔ ∀ c, atom.kind = .literal c → ¬ language.IsSpecial c := by
  rcases atom with ⟨kind, repeatable⟩
  cases kind with
  | wildcard => simp [CanWrite]
  | literal d => simp [CanWrite]
  | abstract => exact absurd rfl hc

/-- An atom without a sign is a literal of a special character, or abstract. -/
theorem sign_eq_error_iff :
    language.sign atom = .error fault ↔
      (∃ c, atom.kind = .literal c ∧ language.IsSpecial c ∧ fault = .writesSpecial c) ∨
        (atom.kind = .abstract ∧ fault = .writesAbstract atom) := by
  rcases atom with ⟨kind, repeatable⟩
  cases kind with
  | wildcard => simp [sign]
  | literal d => by_cases hd : language.IsSpecial d <;> simp [sign, hd, eq_comm]
  | abstract => simp [sign, eq_comm]

/-! ### Sequences of atoms that are written -/

theorem writeAtoms_cons_of_sign (h : language.sign atom = .ok c) (atoms : List Atom) :
    language.writeAtoms (atom :: atoms) =
      (fun text => c :: (language.marker atom ++ text)) <$> language.writeAtoms atoms := by
  simp [writeAtoms, h]

theorem writeAtoms_cons_of_error (h : language.sign atom = .error fault) (atoms : List Atom) :
    language.writeAtoms (atom :: atoms) = .error fault := by
  simp [writeAtoms, h]

theorem writeAtoms_cons_eq_ok_iff :
    language.writeAtoms (atom :: atoms) = .ok text ↔
      ∃ c later, language.sign atom = .ok c ∧ language.writeAtoms atoms = .ok later ∧
        text = c :: (language.marker atom ++ later) := by
  cases h : language.sign atom with
  | error fault => simp [writeAtoms_cons_of_error h]
  | ok c =>
      rw [writeAtoms_cons_of_sign h, map_eq_ok_iff]
      constructor
      · rintro ⟨later, hl, rfl⟩
        exact ⟨c, later, rfl, hl, rfl⟩
      · rintro ⟨d, later, hd, hl, rfl⟩
        obtain rfl : c = d := Except.ok.inj hd
        exact ⟨later, hl, rfl⟩

/-- What is written does not begin with the marker. -/
theorem head?_ne_of_writeAtoms (h : language.writeAtoms atoms = .ok text) :
    text.head? ≠ some language.zeroOrMore := by
  cases atoms with
  | nil =>
      obtain rfl : [] = text := Except.ok.inj h
      simp
  | cons atom atoms =>
      obtain ⟨c, later, hc, -, rfl⟩ := writeAtoms_cons_eq_ok_iff.1 h
      simpa using (sign_eq_ok_iff.1 hc).1

theorem exists_writeAtoms_iff :
    (∃ text, language.writeAtoms atoms = .ok text) ↔ ∀ atom ∈ atoms, language.CanWrite atom := by
  induction atoms with
  | nil => simp [writeAtoms]
  | cons atom atoms ih =>
      rw [List.forall_mem_cons, ← exists_sign_iff, ← ih]
      constructor
      · rintro ⟨text, h⟩
        obtain ⟨c, later, hc, hl, -⟩ := writeAtoms_cons_eq_ok_iff.1 h
        exact ⟨⟨c, hc⟩, ⟨later, hl⟩⟩
      · rintro ⟨⟨c, hc⟩, ⟨later, hl⟩⟩
        exact ⟨_, writeAtoms_cons_eq_ok_iff.2 ⟨c, later, hc, hl, rfl⟩⟩

/-- **The first atom without a sign decides** what goes wrong. -/
theorem writeAtoms_eq_error_iff :
    language.writeAtoms atoms = .error fault ↔
      ∃ front atom back, atoms = front ++ atom :: back ∧
        (∀ earlier ∈ front, language.CanWrite earlier) ∧ language.sign atom = .error fault := by
  induction atoms with
  | nil => simp [writeAtoms]
  | cons first atoms ih =>
      cases h : language.sign first with
      | error found =>
          rw [writeAtoms_cons_of_error h]
          constructor
          · intro hf
            obtain rfl : found = fault := Except.error.inj hf
            exact ⟨[], first, atoms, rfl, by simp, h⟩
          · rintro ⟨front, atom, back, heq, hfront, hatom⟩
            cases front with
            | nil =>
                obtain ⟨rfl, rfl⟩ := List.cons.inj heq
                rw [h] at hatom
                exact congrArg Except.error (Except.error.inj hatom)
            | cons earlier front =>
                obtain ⟨rfl, rfl⟩ := List.cons.inj heq
                obtain ⟨c, hc⟩ := exists_sign_iff.2 (hfront first List.mem_cons_self)
                rw [h] at hc
                cases hc
      | ok c =>
          rw [writeAtoms_cons_of_sign h, map_eq_error_iff, ih]
          constructor
          · rintro ⟨front, atom, back, rfl, hfront, hatom⟩
            refine ⟨first :: front, atom, back, rfl, ?_, hatom⟩
            exact List.forall_mem_cons.2 ⟨exists_sign_iff.1 ⟨c, h⟩, hfront⟩
          · rintro ⟨front, atom, back, heq, hfront, hatom⟩
            cases front with
            | nil =>
                obtain ⟨rfl, rfl⟩ := List.cons.inj heq
                rw [h] at hatom
                cases hatom
            | cons earlier front =>
                obtain ⟨rfl, rfl⟩ := List.cons.inj heq
                exact ⟨front, atom, back, rfl, (List.forall_mem_cons.1 hfront).2, hatom⟩

/-! ### The round trip -/

theorem writeAtoms_of_readFrom (h : language.readFrom column text = .ok atoms) :
    language.writeAtoms atoms = .ok text := by
  fun_induction readFrom language column text generalizing atoms with
  | case1 =>
      obtain rfl : [] = atoms := Except.ok.inj h
      rfl
  | case2 => cases h
  | case3 column c hc =>
      obtain rfl : [language.atomFor c false] = atoms := Except.ok.inj h
      exact writeAtoms_cons_eq_ok_iff.2 ⟨c, [], sign_atomFor hc false, rfl, by simp [marker]⟩
  | case4 => cases h
  | case5 column c rest hc ih =>
      obtain ⟨later, hl, rfl⟩ := map_eq_ok_iff.1 h
      exact writeAtoms_cons_eq_ok_iff.2 ⟨c, rest, sign_atomFor hc true, ih hl, by simp [marker]⟩
  | case6 column c d rest hc hd ih =>
      obtain ⟨later, hl, rfl⟩ := map_eq_ok_iff.1 h
      exact writeAtoms_cons_eq_ok_iff.2
        ⟨c, d :: rest, sign_atomFor hc false, ih hl, by simp [marker]⟩

theorem readFrom_of_writeAtoms (h : language.writeAtoms atoms = .ok text) (column : Nat) :
    language.readFrom column text = .ok atoms := by
  induction atoms generalizing text column with
  | nil =>
      obtain rfl : [] = text := Except.ok.inj h
      rfl
  | cons atom atoms ih =>
      obtain ⟨c, later, hsign, hlater, rfl⟩ := writeAtoms_cons_eq_ok_iff.1 h
      obtain ⟨hc, hatom⟩ := sign_eq_ok_iff.1 hsign
      cases hr : atom.repeatable with
      | true =>
          rw [hr] at hatom
          rw [marker_of_repeatable hr, List.singleton_append, readFrom_repeated hc, ih hlater,
            hatom]
          rfl
      | false =>
          -- What follows does not begin with a marker, so the reader gives none to this atom.
          rw [hr] at hatom
          rw [marker_of_plain hr, List.nil_append,
            readFrom_plain hc column (head?_ne_of_writeAtoms hlater), ih hlater, hatom]
          rfl

theorem read_eq_ok_iff : language.read text = .ok atoms ↔ language.writeAtoms atoms = .ok text :=
  ⟨writeAtoms_of_readFrom, fun h => readFrom_of_writeAtoms h 0⟩

theorem parse_of_read (h : language.read text = .ok atoms) :
    language.parse text = .ok ⟨atoms⟩ := by
  rw [parse, h]

theorem parse_of_misread (h : language.read text = .error column) :
    language.parse text = .error (language.rejection text column) := by
  rw [parse, h]

theorem parse_eq_ok_iff_read :
    language.parse text = .ok pattern ↔ language.read text = .ok pattern.atoms := by
  cases h : language.read text with
  | error column => simp [parse_of_misread h]
  | ok atoms =>
      rw [parse_of_read h]
      constructor
      · intro hp
        obtain rfl : ⟨atoms⟩ = pattern := Except.ok.inj hp
        rfl
      · intro hp
        obtain rfl : atoms = pattern.atoms := Except.ok.inj hp
        rfl

/-- **A text and its pattern determine each other.** -/
theorem parse_eq_ok_iff_write :
    language.parse text = .ok pattern ↔ language.write (.valid pattern) = .ok text :=
  parse_eq_ok_iff_read.trans read_eq_ok_iff

/-- **Reading and writing are inverse.**  What is read from a text is written as that text.  A
pattern without abstract atoms has a text exactly if none of its literals is one of the special
characters, and that text is read as the pattern.  Of a pattern that has no text the first atom
without a sign decides, and the invalid pattern has no text. -/
theorem reading_and_writing_are_inverse (language : Language) :
    (∀ text pattern, language.parse text = .ok pattern →
      language.write (.valid pattern) = .ok text) ∧
    (∀ pattern : Pattern, pattern.IsConcrete →
      ((∃ text, language.write (.valid pattern) = .ok text) ↔
        ∀ atom ∈ pattern.atoms, ∀ c, atom.kind = .literal c → ¬ language.IsSpecial c) ∧
      (∀ text, language.write (.valid pattern) = .ok text →
        language.parse text = .ok pattern)) ∧
    (∀ (pattern : Pattern) (fault : Fault),
      language.write (.valid pattern) = .error fault ↔
        ∃ front atom back, pattern.atoms = front ++ atom :: back ∧
          (∀ earlier ∈ front, language.CanWrite earlier) ∧
          ((∃ c, atom.kind = .literal c ∧ language.IsSpecial c ∧ fault = .writesSpecial c) ∨
            (atom.kind = .abstract ∧ fault = .writesAbstract atom))) ∧
    (∀ (rep : Repertoire) (c : Char), (Fault.writesSpecial c).message rep =
      Text.quoted rep [c] ++ " cannot be rendered as a literal".toList) ∧
    language.write .invalid = .error .writesInvalid := by
  refine ⟨?_, ?_, ?_, ?_, rfl⟩
  · intro text pattern h
    exact parse_eq_ok_iff_write.1 h
  · intro pattern hc
    refine ⟨?_, fun text h => parse_eq_ok_iff_write.2 h⟩
    rw [write, exists_writeAtoms_iff]
    constructor
    · intro h atom hatom
      exact (canWrite_iff (hc atom hatom)).1 (h atom hatom)
    · intro h atom hatom
      exact (canWrite_iff (hc atom hatom)).2 (h atom hatom)
  · intro pattern fault
    simp only [write, writeAtoms_eq_error_iff, sign_eq_error_iff]
  · intro rep c
    rfl

/-- A wildcard and a marker that follow one another come back as they were.  Of three atoms without
a sign the first one decides, which is not the abstract one. -/
theorem text_of_marked_wildcards :
    Language.standard.parse ['a', '*', '.', '.', '*'] =
        .ok ⟨[.literal 'a' true, .wildcard false, .wildcard true]⟩ ∧
      Language.standard.write (.valid ⟨[.literal 'a' true, .wildcard false, .wildcard true]⟩) =
        .ok ['a', '*', '.', '.', '*'] ∧
      Language.standard.write
          (.valid
            ⟨[.literal 'b' false, .literal '*' true, ⟨.abstract, false⟩, .literal '.' false]⟩) =
        .error (.writesSpecial '*') := by
  obtain ⟨hwrite, hconcrete, herror, -, -⟩ := reading_and_writing_are_inverse Language.standard
  have hparse : Language.standard.parse ['a', '*', '.', '.', '*'] =
      .ok ⟨[.literal 'a' true, .wildcard false, .wildcard true]⟩ :=
    (hconcrete _ (by decide)).2 _ rfl
  refine ⟨hparse, hwrite _ _ hparse, ?_⟩
  refine (herror _ _).2 ⟨[.literal 'b' false], .literal '*' true, _, rfl, ?_, ?_⟩
  · simp [CanWrite, Atom.literal, IsSpecial, Language.standard]
  · exact Or.inl ⟨'*', rfl, Or.inr rfl, rfl⟩

end Language

end StarPattern
