/-
**Quoted text.**

A quoted text is written between two equal quotes on one line, in such a way that the text can be
read off it again.  The quote is `'`, unless the text holds `'` and no `"`.  A backslash stands
before the quote in use and before a backslash, the three common control characters have letters of
their own, and any other character that the repertoire does not show is written by its number in
hexadecimal digits, in the shortest of three widths.

Main definitions:

* `StarPattern.Repertoire` — which characters stand for themselves;
* `StarPattern.Text.quoteFor` — the quote that suits a text;
* `StarPattern.Text.escape` — how one character is written;
* `StarPattern.Text.quoted` — how a text is written.

Main results:

* `StarPattern.Text.newline_not_mem_quoted` — a quoted text is one line.
-/
import StarPattern.Text.Basic

set_option relaxedAutoImplicit false
set_option autoImplicit false

namespace StarPattern

/-- The characters that a printed form shows as themselves. -/
structure Repertoire where
  shows : Char → Bool

namespace Text

/-- The last `width` hexadecimal digits of a number, in lower case. -/
def hexadecimal : (width : Nat) → Nat → Text
  | 0, _ => []
  | width + 1, n => hexadecimal width (n / 16) ++ [Nat.digitChar (n % 16)]

@[simp] theorem length_hexadecimal (width n : Nat) : (hexadecimal width n).length = width := by
  induction width generalizing n with
  | zero => rfl
  | succ width ih => simp [hexadecimal, ih]

/-- A character by its number: two, four or eight digits, as many as the number needs. -/
def escapeNumber (n : Nat) : Text :=
  if n < 0x100 then '\\' :: 'x' :: hexadecimal 2 n
  else if n < 0x10000 then '\\' :: 'u' :: hexadecimal 4 n
  else '\\' :: 'U' :: hexadecimal 8 n

/-- How a character is written between two quotes. -/
def escape (rep : Repertoire) (quote c : Char) : Text :=
  if c = quote ∨ c = '\\' then ['\\', c]
  else if c = '\n' then ['\\', 'n']
  else if c = '\r' then ['\\', 'r']
  else if c = '\t' then ['\\', 't']
  else if rep.shows c then [c]
  else escapeNumber c.toNat

/-- Double quotes spare a text with single quotes its backslashes, if it has no double quotes. -/
def quoteFor (text : Text) : Char :=
  if '\'' ∈ text ∧ '"' ∉ text then '"' else '\''

/-- The text between two quotes, each character escaped. -/
def quoted (rep : Repertoire) (text : Text) : Text :=
  quoteFor text :: (text.flatMap (escape rep (quoteFor text)) ++ [quoteFor text])

/-! ### One line -/

theorem newline_not_mem_hexadecimal (width n : Nat) : '\n' ∉ hexadecimal width n := by
  induction width generalizing n with
  | zero => simp [hexadecimal]
  | succ width ih =>
      have hdigits : ∀ k < 16, '\n' ≠ Nat.digitChar k := by decide
      have hlast : '\n' ≠ Nat.digitChar (n % 16) := hdigits _ (Nat.mod_lt n (by decide))
      simp [hexadecimal, ih, hlast]

theorem newline_not_mem_escapeNumber (n : Nat) : '\n' ∉ escapeNumber n := by
  unfold escapeNumber
  split
  · simp [newline_not_mem_hexadecimal]
  · split <;> simp [newline_not_mem_hexadecimal]

theorem newline_not_mem_escape {quote : Char} (hq : quote ≠ '\n') (rep : Repertoire) (c : Char) :
    '\n' ∉ escape rep quote c := by
  fun_cases escape rep quote c with
  | case1 h =>
      rcases h with rfl | rfl
      · simp [hq.symm]
      · simp
  | case2 => simp
  | case3 => simp
  | case4 => simp
  | case5 _ hc => simp [Ne.symm hc]
  | case6 => exact newline_not_mem_escapeNumber c.toNat

theorem quoteFor_ne_newline (text : Text) : quoteFor text ≠ '\n' := by
  unfold quoteFor
  split <;> decide

/-- **A quoted text is one line**, whatever the text. -/
theorem newline_not_mem_quoted (rep : Repertoire) (text : Text) : '\n' ∉ text.quoted rep := by
  have hquote := quoteFor_ne_newline text
  simp [quoted, hquote.symm, newline_not_mem_escape hquote]

end Text

end StarPattern
