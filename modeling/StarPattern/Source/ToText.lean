/-
**The text of a source.**

Text is taken as it is, bytes are read as UTF-8, and anything else is refused.

Main definitions:

* `StarPattern.Source.toText` — the text that a source holds.
-/
import StarPattern.Fault

set_option relaxedAutoImplicit false
set_option autoImplicit false

namespace StarPattern

namespace Source

/-- The text that a source holds. -/
def toText : Source → Except Fault Text
  | text t => .ok t
  | bytes b => (Utf8.decode b).mapError .undecodable
  | other kind => .error (.wrongKind kind)

@[simp] theorem toText_text (t : Text) : (Source.text t).toText = .ok t := rfl

@[simp] theorem toText_other (kind : Kind) :
    (Source.other kind).toText = .error (.wrongKind kind) := rfl

end Source

end StarPattern
