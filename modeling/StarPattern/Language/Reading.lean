/-
**Reading a pattern text.**

Every character of a pattern text but the repeat marker is an atom, and a marker belongs to the atom
right before it, which takes at most one.  So the reader looks one character ahead: an atom takes a
marker that follows along, and a marker that is met where an atom should begin has nothing to
repeat.  The first such marker decides; the text is then refused with that column marked.

Main definitions:

* `StarPattern.Language.read` — the atoms of a text, or the column of the first misplaced marker;
* `StarPattern.Language.parse` — the pattern, or the rejection;
* `StarPattern.Language.interpret` — the pattern, or the invalid one;
* `StarPattern.LogRecord`, `StarPattern.Language.log` — what is reported beside it.

Main results:

* `StarPattern.Language.interpret_isConcrete` — nothing abstract is read from a text.
-/
import StarPattern.Language
import StarPattern.Pattern

set_option relaxedAutoImplicit false
set_option autoImplicit false

namespace StarPattern

namespace Language

/-- The atom that a character stands for, before any marker. -/
def atomFor (language : Language) (c : Char) (repeatable : Bool) : Atom :=
  if c = language.any then .wildcard repeatable else .literal c repeatable

/-- The atoms of a text whose first character has the given column, or the column of the first
marker that has nothing to repeat. -/
def readFrom (language : Language) : (column : Nat) → Text → Except Nat (List Atom)
  | _, [] => .ok []
  | column, [c] =>
    if c = language.zeroOrMore then .error column else .ok [language.atomFor c false]
  | column, c :: d :: rest =>
    if c = language.zeroOrMore then .error column
    else if d = language.zeroOrMore then
      (language.atomFor c true :: ·) <$> language.readFrom (column + 2) rest
    else (language.atomFor c false :: ·) <$> language.readFrom (column + 1) (d :: rest)

/-- The atoms of a text, or the column of the first misplaced marker. -/
def read (language : Language) (text : Text) : Except Nat (List Atom) :=
  language.readFrom 0 text

/-! ### Equations of the reader -/

section Equations

variable {language : Language} {c : Char}

theorem readFrom_marker (column : Nat) (rest : Text) :
    language.readFrom column (language.zeroOrMore :: rest) = .error column := by
  cases rest with
  | nil => simp [readFrom]
  | cons d rest => simp [readFrom]

theorem readFrom_repeated (hc : c ≠ language.zeroOrMore) (column : Nat) (rest : Text) :
    language.readFrom column (c :: language.zeroOrMore :: rest) =
      (language.atomFor c true :: ·) <$> language.readFrom (column + 2) rest := by
  simp [readFrom, hc]

/-- A character without a marker after it is an atom that is not repeatable. -/
theorem readFrom_plain (hc : c ≠ language.zeroOrMore) (column : Nat) {rest : Text}
    (hr : rest.head? ≠ some language.zeroOrMore) :
    language.readFrom column (c :: rest) =
      (language.atomFor c false :: ·) <$> language.readFrom (column + 1) rest := by
  cases rest with
  | nil =>
      simp only [readFrom, if_neg hc]
      rfl
  | cons d rest =>
      have hd : d ≠ language.zeroOrMore := by simpa using hr
      simp [readFrom, hc, hd]

end Equations

@[simp] theorem atomFor_repeatable (language : Language) (c : Char) (repeatable : Bool) :
    (language.atomFor c repeatable).repeatable = repeatable := by
  unfold atomFor
  split <;> rfl

theorem atomFor_isConcrete (language : Language) (c : Char) (repeatable : Bool) :
    (language.atomFor c repeatable).IsConcrete := by
  unfold atomFor
  split <;> simp [Atom.IsConcrete, Atom.wildcard, Atom.literal]

theorem readFrom_isConcrete (language : Language) (column : Nat) (text : Text) {atoms : List Atom}
    (h : language.readFrom column text = .ok atoms) : ∀ atom ∈ atoms, atom.IsConcrete := by
  fun_induction readFrom language column text generalizing atoms with
  | case1 => cases h; simp
  | case2 => cases h
  | case3 column c hc =>
      cases h
      exact List.forall_mem_singleton.2 (language.atomFor_isConcrete c false)
  | case4 => cases h
  | case5 column c rest hc ih =>
      obtain ⟨later, hl, rfl⟩ := map_eq_ok_iff.1 h
      exact List.forall_mem_cons.2 ⟨language.atomFor_isConcrete c true, ih hl⟩
  | case6 column c d rest hc hd ih =>
      obtain ⟨later, hl, rfl⟩ := map_eq_ok_iff.1 h
      exact List.forall_mem_cons.2 ⟨language.atomFor_isConcrete c false, ih hl⟩

/-- Why the marker in a column is misplaced: at the start nothing is before it, and anywhere else
another marker is. -/
def reason (language : Language) (column : Nat) : Text :=
  if column = 0 then language.zeroOrMore :: " is not preceded by a repeatable expression".toList
  else language.zeroOrMore :: (" is preceded by another ".toList ++ [language.zeroOrMore])

/-- The refusal of a text because of the marker in a column. -/
def rejection (language : Language) (text : Text) (column : Nat) : Rejection :=
  ⟨language.reason column, some (text.mark column)⟩

/-- The pattern that a text stands for, or why it stands for none. -/
def parse (language : Language) (text : Text) : Except Rejection Pattern :=
  match language.read text with
  | .ok atoms => .ok ⟨atoms⟩
  | .error column => .error (language.rejection text column)

/-- The pattern that a text stands for, or the invalid one. -/
def interpret (language : Language) (text : Text) : Parsed :=
  match language.parse text with
  | .ok pattern => .valid pattern
  | .error _ => .invalid

theorem parse_isConcrete (language : Language) {text : Text} {pattern : Pattern}
    (h : language.parse text = .ok pattern) : pattern.IsConcrete := by
  cases hr : language.read text with
  | error column => simp [parse, hr] at h
  | ok atoms =>
      obtain rfl : ⟨atoms⟩ = pattern := by simpa [parse, hr] using h
      exact language.readFrom_isConcrete 0 text hr

/-- Nothing abstract is read from a text. -/
theorem interpret_isConcrete (language : Language) (text : Text) :
    (language.interpret text).IsConcrete := by
  cases hp : language.parse text with
  | error rejection => simp [interpret, hp, Parsed.IsConcrete]
  | ok pattern => simpa [interpret, hp, Parsed.IsConcrete] using language.parse_isConcrete hp

end Language

/-! ### Reports -/

/-- A message of a component for whoever looks for the cause of a problem. -/
structure LogRecord where
  component : Text
  message : Text
  deriving DecidableEq, Repr

/-- A record as one line, without the line break. -/
def LogRecord.line (record : LogRecord) : Text :=
  "DEBUG:".toList ++ (record.component ++ ':' :: record.message)

namespace Language

/-- The report of a rejected pattern text. -/
def rejectionRecord (rep : Repertoire) (text reason : Text) : LogRecord where
  component := "regex_lite.parser".toList
  message := "rejected pattern ".toList ++ (text.quoted rep ++ (": ".toList ++ reason))

/-- What is reported while a text is interpreted: one record if it is rejected, else none. -/
def log (rep : Repertoire) (language : Language) (text : Text) : List LogRecord :=
  match language.parse text with
  | .ok _ => []
  | .error rejection => [rejectionRecord rep text rejection.reason]

end Language

end StarPattern
