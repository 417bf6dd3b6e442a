/-
**Faults.**

Everything that can go wrong, as one type whose constructors are the causes, and the words for each
cause in one function.

Main definitions:

* `StarPattern.Rejection` — why a pattern text is refused, with the marked text where there is one;
* `StarPattern.IsIndex` — the integers that can be an index or a count;
* `StarPattern.Fault` — the causes of failure;
* `StarPattern.Fault.className`, `StarPattern.Fault.message` — the class of a cause, and its
  message;
* `StarPattern.Fault.ofIndex` — the cause for an index at which nothing is.

Main results:

* `StarPattern.map_eq_ok_iff`, `StarPattern.map_eq_error_iff`, `StarPattern.mapError_eq_ok_iff` —
  the outcome of a function on a result that may be missing, or on what is there in its place.
-/
import StarPattern.Atom
import StarPattern.Source
import StarPattern.Text.Utf8

set_option relaxedAutoImplicit false
set_option autoImplicit false

namespace StarPattern

/-- Why a pattern text is refused: a reason, and the text with the offending column marked. -/
structure Rejection where
  reason : Text
  marked : Option Text
  deriving DecidableEq, Repr

/-- The reason, followed by the marked text on lines of its own if there is one. -/
def Rejection.message (rejection : Rejection) : Text :=
  match rejection.marked with
  | none => rejection.reason
  | some marked => rejection.reason ++ '\n' :: marked

/-- The integers that can be an index or a count: they have 64 bits, one of them for the sign. -/
def IsIndex (n : Int) : Prop := -9223372036854775808 ≤ n ∧ n ≤ 9223372036854775807

instance : DecidablePred IsIndex := fun _ => inferInstanceAs (Decidable (_ ∧ _))

/-- The causes of failure. -/
inductive Fault
  /-- A value that is neither text nor bytes. -/
  | wrongKind (kind : Source.Kind)
  /-- Bytes that encode no text. -/
  | undecodable (damage : Utf8.Damage)
  /-- A literal that is not made of one character. -/
  | literalLength (raw : Text)
  /-- A wildcard sign that is not made of one character. -/
  | anyLength (raw : Text)
  /-- A repeat marker that is not made of one character. -/
  | zeroOrMoreLength (raw : Text)
  /-- One character as both wildcard sign and repeat marker. -/
  | sameCharacter (c : Char)
  /-- A text that is no pattern. -/
  | rejected (rejection : Rejection)
  /-- An invalid pattern has no text. -/
  | writesInvalid
  /-- A literal that would be read as a special character. -/
  | writesSpecial (c : Char)
  /-- An abstract atom has no text. -/
  | writesAbstract (atom : Atom)
  /-- What is abstract cannot decide. -/
  | undecided
  /-- A state or index outside the pattern. -/
  | outsidePattern
  /-- A row without the entry for the empty text. -/
  | emptyRow
  /-- A caret left of the text. -/
  | caretOutside
  /-- An integer that cannot be an index, where there is nothing at it. -/
  | noIndex
  /-- An integer that cannot be a count. -/
  | noCount
  /-- A line that has more cells than any line can have. -/
  | noRoom
  /-- All characters have been handed out. -/
  | exhausted
  /-- An invalid pattern has no length. -/
  | invalidLength
  /-- An invalid pattern has no atoms. -/
  | invalidIndex
  /-- An invalid pattern is neither nullable nor not. -/
  | invalidNullable
  /-- A value of the named kind cannot be changed. -/
  | immutable (name : Text)
  deriving DecidableEq, Repr

/-- The class of a cause. -/
def Fault.className : Fault → Text
  | wrongKind _ | invalidLength | invalidIndex => "TypeError".toList
  | undecodable _ => "UnicodeDecodeError".toList
  | literalLength _ | anyLength _ | zeroOrMoreLength _ | sameCharacter _ => "ValueError".toList
  | writesInvalid | writesSpecial _ => "ValueError".toList
  | rejected _ => "ParserError".toList
  | writesAbstract _ | undecided => "NotImplementedError".toList
  | outsidePattern | emptyRow | caretOutside | noIndex => "IndexError".toList
  | noCount => "OverflowError".toList
  | noRoom => "MemoryError".toList
  | exhausted => "StopIteration".toList
  | invalidNullable | immutable _ => "AttributeError".toList

/-- The message of a cause; quoted parts show the characters of the repertoire. -/
def Fault.message (rep : Repertoire) : Fault → Text
  | wrongKind kind => "expected str or bytes, got ".toList ++ kind.name
  | undecodable damage => damage.message
  | literalLength raw => "expected a single code point, got ".toList ++ raw.quoted rep
  | anyLength raw => "any must be a single character, got ".toList ++ raw.quoted rep
  | zeroOrMoreLength raw =>
    "zero_or_more must be a single character, got ".toList ++ raw.quoted rep
  | sameCharacter c =>
    "any and zero_or_more must differ, both are ".toList ++ Text.quoted rep [c]
  | rejected rejection => rejection.message
  | writesInvalid => "an invalid pattern cannot be rendered".toList
  | writesSpecial c => Text.quoted rep [c] ++ " cannot be rendered as a literal".toList
  | writesAbstract atom => atom.describe rep
  | undecided => []
  | outsidePattern => "tuple index out of range".toList
  | emptyRow => "list index out of range".toList
  | caretOutside => "list assignment index out of range".toList
  | noIndex | noCount => "cannot fit 'int' into an index-sized integer".toList
  | noRoom => []
  | exhausted => []
  | invalidLength => "object of type '_Invalid' has no len()".toList
  | invalidIndex => "'_Invalid' object is not subscriptable".toList
  | invalidNullable => "'_Invalid' object has no attribute 'is_nullable'".toList
  | immutable name => name ++ " is immutable".toList

/-- The cause for an index at which nothing is: the given one, unless the integer cannot be an index
at all. -/
def Fault.ofIndex (index : Int) (outside : Fault) : Fault :=
  if IsIndex index then outside else .noIndex

/-- An integer that cannot be an index is refused in the class of those that can. -/
theorem Fault.className_ofIndex {outside : Fault} (h : outside.className = "IndexError".toList)
    (index : Int) : (ofIndex index outside).className = "IndexError".toList := by
  unfold ofIndex
  split
  · exact h
  · rfl

/-! ### Outcomes -/

section Outcomes

variable {ε α β : Type} {f : α → β} {outcome : Except ε α}

theorem map_eq_ok_iff {b : β} : f <$> outcome = .ok b ↔ ∃ a, outcome = .ok a ∧ f a = b := by
  cases outcome with
  | error e => simp [Functor.map, Except.map]
  | ok a => simp [Functor.map, Except.map]

theorem map_eq_error_iff {e : ε} : f <$> outcome = .error e ↔ outcome = .error e := by
  cases outcome with
  | error e' => simp [Functor.map, Except.map]
  | ok a => simp [Functor.map, Except.map]

theorem mapError_eq_ok_iff {ε' : Type} {g : ε → ε'} {a : α} :
    outcome.mapError g = .ok a ↔ outcome = .ok a := by
  cases outcome with
  | error e => constructor <;> (intro h; cases h)
  | ok a' => constructor <;> (intro h; cases h; rfl)

end Outcomes

end StarPattern
