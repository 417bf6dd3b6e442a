/-
**Matching by a table.**

Entry `j` of row `i` of the table says whether the first `i` atoms match the first `j` characters of
the text.  The row before all atoms holds at the empty text only.  An atom that is not repeatable
moves a match on by one character that it accepts; a repeatable atom keeps every match, and extends
it for as long as it accepts the next character.  A row depends on the row before it and on the atom
alone, so a match takes time in proportion to the number of atoms times the length of the text.  A
row without any match cannot be recovered from, and ends the computation.  For the empty text no row
is computed: it is matched if every atom may be left out.

Main definitions:

* `StarPattern.Row` — a row of the table;
* `StarPattern.Table.rowAfter` — the row after one more atom;
* `StarPattern.Table.allRows`, `StarPattern.Table.rows` — every row, and the rows up to the first
  one without a match;
* `StarPattern.Table.examine` — the rows that are computed for a source, with the decision;
* `StarPattern.Table.accepts` — the decision.
-/
import StarPattern.Source.ToText
import StarPattern.Pattern

set_option relaxedAutoImplicit false
set_option autoImplicit false

namespace StarPattern

/-- A row of the table: one entry for each prefix of the text, the shortest first. -/
abbrev Row := List Bool

namespace Table

/-- The row before all atoms: they match the empty text. -/
def firstRow (text : Text) : Row := true :: List.replicate text.length false

/-- The row after an atom that takes exactly one character. -/
def plainRow (previous hits : Row) : Row :=
  false :: List.zipWith (fun before hit => before && hit) previous hits

/-- The row after an atom that takes any number of characters: from the entry for the empty text
on, a match is there already or is the extension of the match one character shorter. -/
def repeatedRow (start : Bool) (previous hits : Row) : Row :=
  (previous.zip hits).scanl (fun reached entry => entry.1 || (entry.2 && reached)) start

/-- The row after one more atom.  Rows and texts of lengths that do not belong together are taken
up to the shorter one. -/
def rowAfter (atom : Atom) (previous : Row) (text : Text) : Except Fault Row := do
  let hits ← atom.hits text
  if atom.repeatable then
    match previous with
    | [] => throw .emptyRow
    | start :: later => return repeatedRow start later hits
  else return plainRow previous hits

/-- Every row after the given one, one for each atom. -/
def allRows (text : Text) : Row → List Atom → Except Fault (List Row)
  | _, [] => .ok []
  | row, atom :: rest => do
    let next ← rowAfter atom row text
    let later ← allRows text next rest
    return next :: later

/-- The rows after the given one, up to the first that holds no match. -/
def rows (text : Text) : Row → List Atom → Except Fault (List Row)
  | _, [] => .ok []
  | row, atom :: rest => do
    let next ← rowAfter atom row text
    if next.any id then
      let later ← rows text next rest
      return next :: later
    else return [next]

/-- The entry for the whole text in the last of the rows after the given one. -/
def verdict (row : Row) (rows : List Row) : Bool := (rows.getLastD row).getLastD false

/-! ### Decisions -/

/-- The rows that were computed, and whether the pattern matches. -/
structure Examination where
  rows : List Row
  matched : Bool
  deriving DecidableEq, Repr

/-- The examination of a text. -/
def examineText (pattern : Pattern) : Text → Except Fault Examination
  | [] => .ok ⟨[], pattern.nullable⟩
  | text => do
    let rows ← rows text (firstRow text) pattern.atoms
    return ⟨rows, verdict (firstRow text) rows⟩

/-- The examination of a source, which is not looked at if the pattern is invalid. -/
def examine : Parsed → Source → Except Fault Examination
  | .invalid, _ => .ok ⟨[], false⟩
  | .valid pattern, source => source.toText >>= examineText pattern

/-- Whether the pattern matches the text of the source. -/
def accepts (parsed : Parsed) (source : Source) : Except Fault Bool :=
  Examination.matched <$> examine parsed source

end Table

end StarPattern
