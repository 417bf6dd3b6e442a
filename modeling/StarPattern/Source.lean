/-
**What a caller hands over.**

Patterns and texts arrive as text, as bytes, or as a value of some other kind, which is neither.

Main definitions:

* `StarPattern.Source` — a value given by a caller;
* `StarPattern.Source.Kind` — the kinds of values that hold no text, with their names.
-/
import StarPattern.Text.Basic

set_option relaxedAutoImplicit false
set_option autoImplicit false

namespace StarPattern

/-- The kinds of values that hold no text. -/
inductive Source.Kind
  | null
  | boolean
  | integer
  | fraction
  | list
  | mapping
  /-- A value of any other class, which has this name. -/
  | object (name : Text)
  deriving DecidableEq, Repr

/-- The name that messages give to a kind. -/
def Source.Kind.name : Source.Kind → Text
  | null => "NoneType".toList
  | boolean => "bool".toList
  | integer => "int".toList
  | fraction => "float".toList
  | list => "list".toList
  | mapping => "dict".toList
  | object name => name

/-- A value given by a caller. -/
inductive Source
  | text (text : Text)
  | bytes (bytes : List UInt8)
  | other (kind : Source.Kind)
  deriving DecidableEq, Repr

end StarPattern
