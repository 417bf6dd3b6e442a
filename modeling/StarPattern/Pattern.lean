/-
**Patterns.**

A pattern is a sequence of atoms.  Its atoms are counted from the front, from zero on, or from the
back, where the last atom has the index `-1`.  Reading a text yields a pattern or the one invalid
pattern, which has no atoms, no length, and matches nothing.

Main definitions:

* `StarPattern.Pattern` — a sequence of atoms;
* `StarPattern.Pattern.offset?`, `StarPattern.Pattern.get` — the atom at an index of either sign;
* `StarPattern.Pattern.nullable` — every atom may be left out;
* `StarPattern.Parsed` — a pattern, or the invalid one.
-/
import StarPattern.Atom.Decision

set_option relaxedAutoImplicit false
set_option autoImplicit false

namespace StarPattern

/-- A sequence of atoms. -/
structure Pattern where
  atoms : List Atom
  deriving DecidableEq, Repr

namespace Pattern

/-- The number of atoms. -/
def length (pattern : Pattern) : Nat := pattern.atoms.length

/-- No atom of the pattern is abstract. -/
def IsConcrete (pattern : Pattern) : Prop := ∀ atom ∈ pattern.atoms, atom.IsConcrete

instance (pattern : Pattern) : Decidable pattern.IsConcrete :=
  inferInstanceAs (Decidable (∀ atom ∈ pattern.atoms, atom.IsConcrete))

/-- The distance from the front of an index between minus the length and the length, both
included; the length itself is the place behind the last atom. -/
def offset? (pattern : Pattern) (index : Int) : Option Nat :=
  if 0 ≤ index then
    if index ≤ pattern.length then some index.toNat else none
  else if -pattern.length ≤ index then some (pattern.length + index).toNat
  else none

/-- The atom at an index. -/
def get (pattern : Pattern) (index : Int) : Except Fault Atom :=
  match (pattern.offset? index).bind (pattern.atoms[·]?) with
  | some atom => .ok atom
  | none => .error .outsidePattern

/-- Every atom may be left out. -/
def nullable (pattern : Pattern) : Bool := pattern.atoms.all Atom.repeatable

/-- The printed form: those of the atoms between brackets. -/
def describe (rep : Repertoire) (pattern : Pattern) : Text :=
  "Pattern([".toList ++ (", ".toList.intercalate (pattern.atoms.map (Atom.describe rep)) ++
    "])".toList)

/-- Patterns do not change: an assignment to any attribute is refused. -/
def assign (_pattern : Pattern) (_attribute : Text) : Except Fault Pattern :=
  .error (.immutable "Pattern".toList)

end Pattern

/-- What reading a pattern text yields. -/
inductive Parsed
  | invalid
  | valid (pattern : Pattern)
  deriving DecidableEq, Repr

namespace Parsed

/-- No atom of what was read is abstract; the invalid pattern has none. -/
def IsConcrete : Parsed → Prop
  | invalid => True
  | valid pattern => pattern.IsConcrete

instance : (parsed : Parsed) → Decidable parsed.IsConcrete
  | invalid => inferInstanceAs (Decidable True)
  | valid pattern => inferInstanceAs (Decidable pattern.IsConcrete)

/-- The number of atoms of a pattern that is valid. -/
def length : Parsed → Except Fault Nat
  | invalid => .error .invalidLength
  | valid pattern => .ok pattern.length

/-- The atom at an index of a pattern that is valid. -/
def get : Parsed → Int → Except Fault Atom
  | invalid, _ => .error .invalidIndex
  | valid pattern, index => (pattern.get index).mapError (.ofIndex index)

/-- Whether every atom of a valid pattern may be left out. -/
def nullable : Parsed → Except Fault Bool
  | invalid => .error .invalidNullable
  | valid pattern => .ok pattern.nullable

/-- The printed form. -/
def describe (rep : Repertoire) : Parsed → Text
  | invalid => "INVALID".toList
  | valid pattern => pattern.describe rep

end Parsed

end StarPattern
