/-
**Languages.**

A language fixes the two special characters of pattern texts: the sign that stands for any
character, and the marker that makes what is before it repeatable.  They are different characters.

Main definitions:

* `StarPattern.Language` — the two special characters;
* `StarPattern.Language.standard` — `.` and `*`;
* `StarPattern.Language.ofTexts` — the language with two given signs, if they make one;
* `StarPattern.Language.IsSpecial`, `StarPattern.Language.specials` — the special characters, as a
  property and in ascending order.
-/
import StarPattern.Fault

set_option relaxedAutoImplicit false
set_option autoImplicit false

namespace StarPattern

/-- The two special characters of pattern texts. -/
structure Language where
  any : Char
  zeroOrMore : Char
  any_ne_zeroOrMore : any ≠ zeroOrMore
  deriving DecidableEq, Repr

namespace Language

/-- A full stop stands for any character and an asterisk is the repeat marker. -/
def standard : Language := ⟨'.', '*', by decide⟩

/-- The language with the given signs.  Each has to be one character, and they have to differ. -/
def ofTexts (any zeroOrMore : Text) : Except Fault Language :=
  match any, zeroOrMore with
  | [a], [z] => if differ : a ≠ z then .ok ⟨a, z, differ⟩ else .error (.sameCharacter a)
  | [_], _ => .error (.zeroOrMoreLength zeroOrMore)
  | _, _ => .error (.anyLength any)

/-- The character is not read as itself. -/
def IsSpecial (language : Language) (c : Char) : Prop :=
  c = language.any ∨ c = language.zeroOrMore

instance (language : Language) (c : Char) : Decidable (language.IsSpecial c) :=
  inferInstanceAs (Decidable (c = language.any ∨ c = language.zeroOrMore))

/-- The special characters in ascending order. -/
def specials (language : Language) : List Char :=
  if language.any < language.zeroOrMore then [language.any, language.zeroOrMore]
  else [language.zeroOrMore, language.any]

/-- The printed form. -/
def describe (rep : Repertoire) (language : Language) : Text :=
  "Language(any=".toList ++ (Text.quoted rep [language.any] ++
    (", zero_or_more=".toList ++ (Text.quoted rep [language.zeroOrMore] ++ [')'])))

end Language

end StarPattern
