/-
**Values and their equality.**

Atoms, patterns, languages and the invalid pattern can be compared with one another and with plain
values of any other type, and values of different classes are different.  An abstract atom is not
settled on what it accepts, so it is equal to every atom with the same mark of repetition, also as a
member of a pattern; this is why equality is not transitive where abstract atoms occur.

A set of values identifies two values if their digests and the values themselves are equal.  What
the parts of a digest are made of is left open.

Main definitions:

* `StarPattern.Value` — the values that are compared;
* `StarPattern.Atom.same`, `StarPattern.Pattern.same`, `StarPattern.Parsed.same`,
  `StarPattern.Value.same` — equality;
* `StarPattern.Hashing`, `StarPattern.Value.digest` — digests over given parts;
* `StarPattern.Value.countDistinct` — the size of the set of a list of values.
-/
import StarPattern.Language
import StarPattern.Pattern

set_option relaxedAutoImplicit false
set_option autoImplicit false

namespace StarPattern

/-! ### Equality -/

/-- Atoms are equal if their fields are; an abstract atom equals all atoms with its mark. -/
def Atom.same (first second : Atom) : Bool :=
  match first.kind, second.kind with
  | .abstract, _ => first.repeatable == second.repeatable
  | _, .abstract => first.repeatable == second.repeatable
  | _, _ => decide (first = second)

/-- Patterns are equal if they have equally many atoms, equal one by one. -/
def Pattern.same (first second : Pattern) : Bool := first.atoms.isEqv second.atoms Atom.same

/-- The invalid pattern is equal to itself alone. -/
def Parsed.same : Parsed → Parsed → Bool
  | invalid, invalid => true
  | valid first, valid second => first.same second
  | _, _ => false

/-- A value that can be compared; plain values have the type `α`. -/
inductive Value (α : Type)
  | atom (atom : Atom)
  | pattern (parsed : Parsed)
  | language (language : Language)
  | plain (value : α)
  deriving DecidableEq, Repr

namespace Value

variable {α : Type}

/-- Equality of values; values of different classes are different. -/
def same [DecidableEq α] : Value α → Value α → Bool
  | atom first, atom second => first.same second
  | pattern first, pattern second => first.same second
  | language first, language second => decide (first = second)
  | plain first, plain second => decide (first = second)
  | _, _ => false

/-- Inequality of values. -/
def differs [DecidableEq α] (first second : Value α) : Bool := !first.same second

end Value

/-! ### Digests -/

/-- The parts that digests are made of: those of a character, of an atom's name and mark, of a
sequence, of the invalid pattern, and of a plain value. -/
structure Hashing (α : Type) where
  character : Char → UInt64
  mark : Text → Bool → UInt64
  sequence : List UInt64 → UInt64
  invalid : UInt64
  plain : α → UInt64

/-- The digest of an atom: for a literal that of its character joins that of its name and mark. -/
def Atom.digest {α : Type} (hashing : Hashing α) (atom : Atom) : UInt64 :=
  match atom.kind with
  | .literal c => hashing.character c ^^^ hashing.mark atom.kindName atom.repeatable
  | _ => hashing.mark atom.kindName atom.repeatable

/-- The digest of what was read. -/
def Parsed.digest {α : Type} (hashing : Hashing α) : Parsed → UInt64
  | invalid => hashing.invalid
  | valid pattern => hashing.sequence (pattern.atoms.map (Atom.digest hashing))

namespace Value

variable {α : Type}

/-- The digest of a value. -/
def digest (hashing : Hashing α) : Value α → UInt64
  | atom a => a.digest hashing
  | pattern p => p.digest hashing
  | language l => hashing.character l.any ^^^ hashing.character l.zeroOrMore
  | plain v => hashing.plain v

/-! ### Distinct values -/

/-- A set takes the two values for one. -/
def identified [DecidableEq α] (hashing : Hashing α) (first second : Value α) : Bool :=
  first.digest hashing == second.digest hashing && first.same second

/-- The values of a list, without those that are taken for one that came before. -/
def distinct [DecidableEq α] (hashing : Hashing α) (values : List (Value α)) : List (Value α) :=
  values.foldl
    (fun kept value => if kept.any (identified hashing value) then kept else value :: kept) []

/-- The size of the set of the values. -/
def countDistinct [DecidableEq α] (hashing : Hashing α) (values : List (Value α)) : Nat :=
  (distinct hashing values).length

end Value

/-- A polynomial in the parts, for plain values that are texts. -/
def Hashing.polynomial : Hashing Text where
  character c := c.toNat.toUInt64 * 0x9E3779B97F4A7C15
  mark name repeatable := mix (if repeatable then 1 else 2) (name.map fun c => c.toNat.toUInt64)
  sequence := mix 3
  invalid := 4
  plain text := mix 5 (text.map fun c => c.toNat.toUInt64)
where
  mix (seed : UInt64) (parts : List UInt64) : UInt64 :=
    parts.foldl (fun sum part => sum * 0x100000001B3 + part) seed

end StarPattern
