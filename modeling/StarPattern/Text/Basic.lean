/-
**Text.**

Texts are sequences of code points.  Every length, position and column of this library counts code
points, so a text is a list of characters, and recursion on a text is recursion on that list.

Main definitions:

* `StarPattern.Text` — a sequence of code points;
* `StarPattern.Text.numeral` — a natural number in decimal notation;
* `StarPattern.Text.mark` — a text with a caret under one of its columns.
-/

set_option relaxedAutoImplicit false
set_option autoImplicit false

namespace StarPattern

/-- A sequence of code points. -/
abbrev Text := List Char

namespace Text

/-- The decimal notation of a number. -/
def numeral (n : Nat) : Text := Nat.toDigits 10 n

/-- The text, a line break, and a caret in the given column of the second line.  The column may lie
past the end of the text. -/
def mark (text : Text) (column : Nat) : Text :=
  text ++ '\n' :: (List.replicate column ' ' ++ ['^'])

end Text

end StarPattern
