/-
**Reading a quoted text back.**

Whatever follows a quoted text, the text can be read off, and it can be told where it ends.  This is
so because a character can be read off the front of what stands between the quotes: only a backslash
announces more than one sign, the sign after it says how many, and no character begins with the
quote in use.  Which characters stand for themselves plays no part in it.  All others are written
with visible ASCII characters, so if no line break stands for itself a quoted text is one line.

Main definitions:

* `StarPattern.SelfDelimiting` — what is printed tells where it ends and what it stands for;
* `StarPattern.Text.unescape` — the first character of an escaped text;
* `StarPattern.Text.IsVisible`, `StarPattern.Text.lineBreaks` — visible ASCII characters, and those
  that end a line;
* `StarPattern.Repertoire.IsOneLine` — the repertoire shows all of the ones and none of the others.

Main results:

* `StarPattern.Text.unescape_escape` — **an escaped character is read back**;
* `StarPattern.Text.selfDelimiting_quoted` — **a quoted text is self-delimiting**;
* `StarPattern.Repertoire.IsOneLine.lineBreak_not_mem_quoted` — **a quoted text is one line**;
* `StarPattern.Repertoire.printable_isOneLine` — the printable characters are such a repertoire.
-/
import Mathlib.Algebra.Group.Nat.Defs
import StarPattern.Text.Printable

set_option relaxedAutoImplicit false
set_option autoImplicit false

namespace StarPattern

/-- What is printed for a value tells where it ends and which value it is, whatever follows. -/
def SelfDelimiting {β : Type} (print : β → Text) : Prop :=
  ∀ ⦃a b : β⦄ ⦃rest later : Text⦄, print a ++ rest = print b ++ later → a = b ∧ rest = later

theorem SelfDelimiting.eq_iff {β : Type} {print : β → Text} (h : SelfDelimiting print) {a b : β} :
    print a = print b ↔ a = b := by
  constructor
  · intro hab
    have happend : print a ++ [] = print b ++ [] := by rw [hab]
    exact (h happend).1
  · rintro rfl
    rfl

namespace Text

variable {rep : Repertoire} {quote c d : Char} {text rest later first second : Text}

/-! ### Numbers -/

/-- The value of a hexadecimal digit in lower case. -/
def digitValue (digit : Char) : Nat :=
  if digit ≤ '9' then digit.toNat - '0'.toNat else digit.toNat - 'a'.toNat + 10

/-- The number that hexadecimal digits make up. -/
def hexadecimalValue (digits : Text) : Nat :=
  digits.foldl (fun sum digit => 16 * sum + digitValue digit) 0

theorem digitValue_digitChar : ∀ k < 16, digitValue (Nat.digitChar k) = k := by decide

theorem hexadecimalValue_hexadecimal {width n : Nat} (h : n < 16 ^ width) :
    hexadecimalValue (hexadecimal width n) = n := by
  induction width generalizing n with
  | zero =>
      obtain rfl : n = 0 := by simpa using h
      rfl
  | succ width ih =>
      have hlast : n % 16 < 16 := Nat.mod_lt n (by decide)
      have hfront : n / 16 < 16 ^ width := by
        rw [Nat.pow_succ] at h
        omega
      have hvalue := ih hfront
      rw [hexadecimalValue] at hvalue ⊢
      rw [hexadecimal, List.foldl_append, hvalue, List.foldl_cons, List.foldl_nil,
        digitValue_digitChar _ hlast]
      omega

/-! ### Reading one character -/

/-- The character with the number that is written in so many digits, and what follows them. -/
def readNumber (width : Nat) (text : Text) : Char × Text :=
  (Char.ofNat (hexadecimalValue (text.take width)), text.drop width)

/-- Reads what stands behind a backslash. -/
def readCode (letter : Char) (rest : Text) : Char × Text :=
  if letter = 'n' then ('\n', rest)
  else if letter = 'r' then ('\r', rest)
  else if letter = 't' then ('\t', rest)
  else if letter = 'x' then readNumber 2 rest
  else if letter = 'u' then readNumber 4 rest
  else if letter = 'U' then readNumber 8 rest
  else (letter, rest)

/-- Reads the first character of an escaped text. -/
def unescape : Text → Option (Char × Text)
  | '\\' :: letter :: rest => some (readCode letter rest)
  | c :: rest => some (c, rest)
  | [] => none

theorem unescape_of_ne (h : c ≠ '\\') (rest : Text) : unescape (c :: rest) = some (c, rest) := by
  unfold unescape
  split
  next heq =>
    obtain rfl : c = '\\' := (List.cons.inj heq).1
    exact absurd rfl h
  next heq =>
    obtain ⟨rfl, rfl⟩ := List.cons.inj heq
    rfl
  next heq => cases heq

theorem readNumber_hexadecimal (width : Nat) (h : c.toNat < 16 ^ width) (rest : Text) :
    readNumber width (hexadecimal width c.toNat ++ rest) = (c, rest) := by
  have hlength := length_hexadecimal width c.toNat
  rw [readNumber, List.take_left' hlength, List.drop_left' hlength,
    hexadecimalValue_hexadecimal h, Char.ofNat_toNat]

/-- The sign behind the backslash tells the number of digits. -/
theorem unescape_escapeNumber (c : Char) (rest : Text) :
    unescape (escapeNumber c.toNat ++ rest) = some (c, rest) := by
  have hbound : c.toNat < 16 ^ 8 := c.val.toNat_lt
  unfold escapeNumber
  split
  next h => exact congrArg some (readNumber_hexadecimal 2 h rest)
  next =>
    split
    next h => exact congrArg some (readNumber_hexadecimal 4 h rest)
    next => exact congrArg some (readNumber_hexadecimal 8 hbound rest)

/-- **An escaped character** is read back, and what follows it is left. -/
theorem unescape_escape (hq : quote = '\'' ∨ quote = '"') (rep : Repertoire) (c : Char)
    (rest : Text) : unescape (escape rep quote c ++ rest) = some (c, rest) := by
  fun_cases escape rep quote c with
  | case1 h =>
      -- no sign that stands for itself behind a backslash is one of the letters
      have hsign : c = '\'' ∨ c = '"' ∨ c = '\\' := by
        rcases h with rfl | rfl
        · exact hq.imp_right Or.inl
        · exact Or.inr (Or.inr rfl)
      rcases hsign with rfl | rfl | rfl <;> rfl
  | case2 _ hc => rw [hc]; rfl
  | case3 _ _ hc => rw [hc]; rfl
  | case4 _ _ _ hc => rw [hc]; rfl
  | case5 h => exact unescape_of_ne (fun hc => h (Or.inr hc)) rest
  | case6 => exact unescape_escapeNumber c rest

theorem selfDelimiting_escape (hq : quote = '\'' ∨ quote = '"') (rep : Repertoire) :
    SelfDelimiting (escape rep quote) := by
  intro c d rest later h
  have hread := congrArg unescape h
  rw [unescape_escape hq, unescape_escape hq, Option.some_inj, Prod.mk.injEq] at hread
  exact hread

/-- No character begins with the quote in use. -/
theorem head?_escape_ne (hq : quote = '\'' ∨ quote = '"') (rep : Repertoire) (c : Char) :
    ∃ d rest, escape rep quote c = d :: rest ∧ d ≠ quote := by
  have hbackslash : '\\' ≠ quote := by
    rcases hq with rfl | rfl <;> decide
  fun_cases escape rep quote c with
  | case1 => exact ⟨_, _, rfl, hbackslash⟩
  | case2 => exact ⟨_, _, rfl, hbackslash⟩
  | case3 => exact ⟨_, _, rfl, hbackslash⟩
  | case4 => exact ⟨_, _, rfl, hbackslash⟩
  | case5 h => exact ⟨_, _, rfl, fun hc => h (Or.inl hc)⟩
  | case6 =>
      unfold escapeNumber
      split
      · exact ⟨_, _, rfl, hbackslash⟩
      · split <;> exact ⟨_, _, rfl, hbackslash⟩

/-! ### Reading a text -/

/-- Up to the closing quote the characters are read one by one. -/
theorem flatMap_escape_inj (hq : quote = '\'' ∨ quote = '"')
    (h : first.flatMap (escape rep quote) ++ quote :: rest =
      second.flatMap (escape rep quote) ++ quote :: later) : first = second ∧ rest = later := by
  induction first generalizing second with
  | nil =>
      cases second with
      | nil => exact ⟨rfl, (List.cons.inj h).2⟩
      | cons d second =>
          obtain ⟨e, more, he, hne⟩ := head?_escape_ne hq rep d
          rw [List.flatMap_cons, he] at h
          exact absurd (List.cons.inj h).1.symm hne
  | cons c first ih =>
      cases second with
      | nil =>
          obtain ⟨e, more, he, hne⟩ := head?_escape_ne hq rep c
          rw [List.flatMap_cons, he] at h
          exact absurd (List.cons.inj h).1 hne
      | cons d second =>
          rw [List.flatMap_cons, List.flatMap_cons, List.append_assoc, List.append_assoc] at h
          obtain ⟨rfl, htail⟩ := selfDelimiting_escape hq rep h
          obtain ⟨rfl, hrest⟩ := ih htail
          exact ⟨rfl, hrest⟩

theorem quoteFor_cases (text : Text) : quoteFor text = '\'' ∨ quoteFor text = '"' := by
  unfold quoteFor
  split
  · exact Or.inr rfl
  · exact Or.inl rfl

/-- **A quoted text is self-delimiting.** -/
theorem selfDelimiting_quoted (rep : Repertoire) : SelfDelimiting (quoted rep) := by
  intro first second rest later h
  simp only [quoted, List.cons_append, List.append_assoc, List.cons.injEq] at h
  obtain ⟨hquote, hbody⟩ := h
  rw [← hquote] at hbody
  exact flatMap_escape_inj (quoteFor_cases first) hbody

/-! ### Visible characters -/

/-- An ASCII character from the space to the tilde. -/
def IsVisible (c : Char) : Prop := ' ' ≤ c ∧ c ≤ '~'

instance (c : Char) : Decidable (IsVisible c) := inferInstanceAs (Decidable (_ ∧ _))

/-- The words of a printed form are checked one character after another. -/
theorem isVisible_of_all {words : Text} (h : words.all (fun c => decide (IsVisible c)) = true) :
    ∀ c ∈ words, IsVisible c := fun c hc => of_decide_eq_true (List.all_eq_true.1 h c hc)

theorem isVisible_of_mem_hexadecimal (width n : Nat) :
    ∀ d ∈ hexadecimal width n, IsVisible d := by
  have hdigits : ∀ k < 16, IsVisible (Nat.digitChar k) := by decide
  induction width generalizing n with
  | zero => exact List.forall_mem_nil _
  | succ width ih =>
      rw [hexadecimal, List.forall_mem_append, List.forall_mem_singleton]
      exact ⟨ih (n / 16), hdigits (n % 16) (Nat.mod_lt n (by decide))⟩

theorem isVisible_of_mem_escapeNumber (n : Nat) : ∀ d ∈ escapeNumber n, IsVisible d := by
  have hcode : ∀ letter width, IsVisible letter →
      ∀ d ∈ '\\' :: letter :: hexadecimal width n, IsVisible d := by
    intro letter width hletter
    rw [List.forall_mem_cons, List.forall_mem_cons]
    exact ⟨by decide, hletter, isVisible_of_mem_hexadecimal width n⟩
  unfold escapeNumber
  split
  · exact hcode 'x' 2 (by decide)
  · split
    · exact hcode 'u' 4 (by decide)
    · exact hcode 'U' 8 (by decide)

/-- An escaped character is written with visible characters, if it does not stand for itself. -/
theorem visible_or_shown_of_mem_escape (hq : quote = '\'' ∨ quote = '"') (rep : Repertoire)
    (c : Char) : ∀ d ∈ escape rep quote c, IsVisible d ∨ rep.shows d = true := by
  fun_cases escape rep quote c with
  | case1 h =>
      have hsign : IsVisible c := by
        rcases h with rfl | rfl
        · rcases hq with rfl | rfl <;> decide
        · decide
      rw [List.forall_mem_cons, List.forall_mem_singleton]
      exact ⟨Or.inl (by decide), Or.inl hsign⟩
  | case2 => exact fun d hd => Or.inl (isVisible_of_all rfl d hd)
  | case3 => exact fun d hd => Or.inl (isVisible_of_all rfl d hd)
  | case4 => exact fun d hd => Or.inl (isVisible_of_all rfl d hd)
  | case5 _ _ _ _ hshown => exact List.forall_mem_singleton.2 (Or.inr hshown)
  | case6 => exact fun d hd => Or.inl (isVisible_of_mem_escapeNumber c.toNat d hd)

/-- A quoted text is written with visible characters, and those that stand for themselves. -/
theorem visible_or_shown_of_mem_quoted (rep : Repertoire) (text : Text) :
    ∀ d ∈ quoted rep text, IsVisible d ∨ rep.shows d = true := by
  have hq := quoteFor_cases text
  have hquote : IsVisible (quoteFor text) := by
    rcases hq with h | h <;> (rw [h]; decide)
  rw [quoted, List.forall_mem_cons, List.forall_mem_append, List.forall_mem_singleton]
  refine ⟨Or.inl hquote, fun d hd => ?_, Or.inl hquote⟩
  obtain ⟨c, -, hc⟩ := List.mem_flatMap.1 hd
  exact visible_or_shown_of_mem_escape hq rep c d hc

/-- The characters that end a line. -/
def lineBreaks : List Char :=
  ['\n', '\r', '\x0b', '\x0c', '\x1c', '\x1d', '\x1e', '\u0085', '\u2028', '\u2029']

end Text

/-! ### Repertoires for one line -/

/-- The repertoire shows the visible ASCII characters and no line break. -/
structure Repertoire.IsOneLine (rep : Repertoire) : Prop where
  shows_visible : ∀ c, Text.IsVisible c → rep.shows c = true
  hides_lineBreaks : ∀ c ∈ Text.lineBreaks, rep.shows c = false

theorem Repertoire.printable_isOneLine : Repertoire.printable.IsOneLine where
  shows_visible _ h := Repertoire.printable_of_ascii h.1 h.2
  hides_lineBreaks := by
    have hall : Text.lineBreaks.all (fun c => !Repertoire.printable.shows c) = true := by
      decide +kernel
    intro c hc
    simpa using List.all_eq_true.1 hall c hc

namespace Repertoire.IsOneLine

variable {rep : Repertoire} {c : Char}

theorem not_lineBreak (h : rep.IsOneLine) (hc : Text.IsVisible c ∨ rep.shows c = true) :
    c ∉ Text.lineBreaks := by
  intro hbreak
  have hshown : rep.shows c = true := hc.elim (h.shows_visible c) id
  rw [h.hides_lineBreaks c hbreak] at hshown
  cases hshown

/-- **A quoted text is one line**, by any of the line breaks. -/
theorem lineBreak_not_mem_quoted (h : rep.IsOneLine) (text : Text) :
    ∀ c ∈ text.quoted rep, c ∉ Text.lineBreaks :=
  fun c hc => h.not_lineBreak (Text.visible_or_shown_of_mem_quoted rep text c hc)

end Repertoire.IsOneLine

end StarPattern
