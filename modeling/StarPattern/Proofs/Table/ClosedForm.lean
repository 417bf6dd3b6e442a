/-
**One row of the table in closed form.**

A row is computed from the one before it entry by entry, and for a repeatable atom each entry looks
at the one just computed.  What comes out can be said without the computation, also for rows and
texts whose lengths do not belong together: an atom that is not repeatable moves each entry on by
one accepted character, and a repeatable one carries each entry along for as long as characters are
accepted.  Since either of them treats every entry of the old row on its own, the row after two old
rows taken together is the two new rows taken together.

Main definitions:

* `StarPattern.Atom.AcceptsAt` — the atom accepts the character in a column;
* `StarPattern.Table.either` — two rows taken together.

Main results:

* `StarPattern.Table.repeatedRow_iff` — an entry of a repeated row by the entries **it was carried
  from**;
* `StarPattern.Table.plainRow_either`, `StarPattern.Table.repeatedRow_either` — two rows taken
  together;
* `StarPattern.Table.rowAfter_closed_form` — all of it about the row after one more atom.
-/
import StarPattern.Proofs.Table.Rows

set_option relaxedAutoImplicit false
set_option autoImplicit false

namespace StarPattern

/-- The text has a character in this column, and the atom accepts it. -/
def Atom.AcceptsAt (atom : Atom) (text : Text) (column : Nat) : Prop :=
  ∃ c, text[column]? = some c ∧ atom.accepts c = true

namespace Table

variable {atom : Atom} {text : Text} {first second previous later later' hits : Row}
variable {start start' : Bool} {j k : Nat}

theorem getElem?_map_accepts_iff :
    (text.map atom.accepts)[k]? = some true ↔ atom.AcceptsAt text k := by
  rw [List.getElem?_map, Option.map_eq_some_iff, Atom.AcceptsAt]

/-! ### Entries of the new row -/

/-- An entry of a repeated row holds if some entry of the old row holds, here or further to the
front, and every character from there on is hit. -/
theorem repeatedRow_iff (hl : j ≤ later.length) (hh : j ≤ hits.length) :
    (repeatedRow start later hits)[j]? = some true ↔
      ∃ i ≤ j, (start :: later)[i]? = some true ∧ ∀ k, i ≤ k → k < j → hits[k]? = some true := by
  -- along the row: what reached the last entry goes on if its character is hit
  induction j with
  | zero =>
      rw [getElem?_repeatedRow_zero]
      constructor
      · intro h
        exact ⟨0, Nat.le_refl 0, h, fun k _ hk => absurd hk (Nat.not_lt_zero k)⟩
      · rintro ⟨i, hi, h, -⟩
        obtain rfl : i = 0 := Nat.le_zero.1 hi
        exact h
  | succ j ih =>
      rw [repeatedRow_succ_iff hl hh, ih (by omega) (by omega)]
      constructor
      · rintro (hnew | ⟨hhit, i, hi, hold, hrun⟩)
        · exact ⟨j + 1, Nat.le_refl _, hnew, fun k hk hlt => absurd hlt (Nat.not_lt.2 hk)⟩
        · refine ⟨i, by omega, hold, fun k hk hlt => ?_⟩
          rcases Nat.lt_succ_iff_lt_or_eq.1 hlt with hlt | rfl
          · exact hrun k hk hlt
          · exact hhit
      · rintro ⟨i, hi, hold, hrun⟩
        rcases Nat.le_succ_iff.1 hi with hi | rfl
        · exact Or.inr ⟨hrun j hi (Nat.lt_succ_self j), i, hi, hold,
            fun k hk hlt => hrun k hk (Nat.lt_succ_of_lt hlt)⟩
        · exact Or.inl hold

/-! ### Two rows taken together -/

/-- The row that holds where one or the other holds. -/
def either (first second : Row) : Row := List.zipWith (fun a b => a || b) first second

@[simp] theorem either_nil : either [] [] = [] := rfl

@[simp] theorem either_cons :
    either (start :: later) (start' :: later') = (start || start') :: either later later' := rfl

theorem length_either (h : first.length = second.length) :
    (either first second).length = first.length := by
  rw [either, List.length_zipWith, h, Nat.min_self]

theorem either_iff (h : first.length = second.length) :
    (either first second)[j]? = some true ↔ first[j]? = some true ∨ second[j]? = some true := by
  rw [either, List.getElem?_zipWith]
  by_cases hj : j < first.length
  · rw [List.getElem?_eq_getElem hj, List.getElem?_eq_getElem (h ▸ hj)]
    simp
  · have hs : second.length ≤ j := by omega
    rw [List.getElem?_eq_none (Nat.not_lt.1 hj), List.getElem?_eq_none hs]
    simp

/-- Rows of one length are equal if they hold at the same entries. -/
theorem row_ext (hlen : first.length = second.length)
    (h : ∀ j < first.length, first[j]? = some true ↔ second[j]? = some true) :
    first = second := by
  refine List.ext_getElem hlen fun j hf hs => ?_
  have hj := h j hf
  rw [List.getElem?_eq_getElem hf, List.getElem?_eq_getElem hs, Option.some_inj,
    Option.some_inj] at hj
  exact Bool.eq_iff_iff.2 hj

theorem plainRow_either (h : first.length = second.length) (hits : Row) :
    plainRow (either first second) hits =
      either (plainRow first hits) (plainRow second hits) := by
  have hnew : (plainRow first hits).length = (plainRow second hits).length := by
    rw [length_plainRow, length_plainRow, h]
  refine row_ext ?_ fun j _ => ?_
  · rw [length_either hnew, length_plainRow, length_plainRow, length_either h]
  · rw [either_iff hnew]
    cases j with
    | zero => simp [getElem?_plainRow_zero]
    | succ j => simp only [plainRow_succ_iff, either_iff h, or_and_right]

theorem repeatedRow_either (h : later.length = later'.length) (start start' : Bool) (hits : Row) :
    repeatedRow (start || start') (either later later') hits =
      either (repeatedRow start later hits) (repeatedRow start' later' hits) := by
  have hold : (start :: later).length = (start' :: later').length := by simp [h]
  have hnew : (repeatedRow start later hits).length = (repeatedRow start' later' hits).length := by
    rw [length_repeatedRow, length_repeatedRow, h]
  refine row_ext ?_ fun j hj => ?_
  · rw [length_either hnew, length_repeatedRow, length_repeatedRow, length_either h]
  · rw [length_repeatedRow, length_either h] at hj
    rw [either_iff hnew, repeatedRow_iff (by rw [length_either h]; omega) (by omega),
      repeatedRow_iff (by omega) (by omega), repeatedRow_iff (by omega) (by omega)]
    -- an entry that is carried along comes from the one row or from the other
    simp only [← either_cons, either_iff hold, or_and_right, and_or_left, exists_or]

/-! ### The row after one more atom -/

theorem rowAfter_repeatable_nil (hc : atom.IsConcrete) (hr : atom.repeatable = true)
    (text : Text) : rowAfter atom [] text = .error .emptyRow := by
  simp [rowAfter, Atom.hits_of_isConcrete hc, hr, bind, Except.bind, throw, throwThe,
    MonadExceptOf.throw]

/-- **An atom that is not repeatable** moves each entry on by one accepted character. -/
theorem rowAfter_plain_closed (hc : atom.IsConcrete) (hr : atom.repeatable = false)
    (previous : Row) (text : Text) :
    ∃ row, rowAfter atom previous text = .ok row ∧
      row.length = 1 + min previous.length text.length ∧ row[0]? = some false ∧
      ∀ j, row[j + 1]? = some true ↔ previous[j]? = some true ∧ atom.AcceptsAt text j := by
  refine ⟨_, rowAfter_plain hc hr previous text, ?_, getElem?_plainRow_zero _ _, fun j => ?_⟩
  · rw [length_plainRow, List.length_map, Nat.add_comm]
  · rw [plainRow_succ_iff, getElem?_map_accepts_iff]

/-- **A repeatable atom** carries each entry along accepted characters. -/
theorem rowAfter_repeatable_closed (hc : atom.IsConcrete) (hr : atom.repeatable = true)
    (hp : previous ≠ []) (text : Text) :
    ∃ row, rowAfter atom previous text = .ok row ∧
      row.length = 1 + min (previous.length - 1) text.length ∧
      ∀ j < row.length, row[j]? = some true ↔
        ∃ i ≤ j, previous[i]? = some true ∧ ∀ k, i ≤ k → k < j → atom.AcceptsAt text k := by
  obtain ⟨start, later, rfl⟩ := List.exists_cons_of_ne_nil hp
  refine ⟨_, rowAfter_repeatable hc hr start later text, ?_, fun j hj => ?_⟩
  · rw [length_repeatedRow, List.length_map, Nat.add_comm, List.length_cons, Nat.add_sub_cancel]
  · rw [length_repeatedRow] at hj
    rw [repeatedRow_iff (by omega) (by omega)]
    simp only [getElem?_map_accepts_iff]

/-- Two old rows taken together yield the two new rows taken together; neither of them does if they
are without entries. -/
theorem rowAfter_either (hc : atom.IsConcrete) (h : first.length = second.length) (text : Text) :
    rowAfter atom (either first second) text =
      either <$> rowAfter atom first text <*> rowAfter atom second text := by
  cases hr : atom.repeatable with
  | false =>
      simp only [rowAfter_plain hc hr, plainRow_either h]
      rfl
  | true =>
      cases first with
      | nil =>
          obtain rfl : second = [] := List.length_eq_zero_iff.1 h.symm
          rw [either_nil, rowAfter_repeatable_nil hc hr]
          rfl
      | cons start later =>
          obtain ⟨start', later', rfl⟩ : ∃ start' later', second = start' :: later' :=
            List.exists_cons_of_length_eq_add_one h.symm
          have hl : later.length = later'.length := by simpa using h
          simp only [either_cons, rowAfter_repeatable hc hr, repeatedRow_either hl]
          rfl

/-- **The row after one more atom in closed form**, for an atom that is not abstract, any old row
and any text, whatever their lengths.  If the atom is not repeatable there always is a new row, one
entry longer than the shorter of them; its first entry does not hold, and every other holds where
the old entry before it holds and the atom accepts the character between them.  If the atom is
repeatable there is no new row just if the old one is without entries; an entry of the new row holds
where some entry of the old row up to it does and the atom accepts all characters in between.  So
a row that belongs to the text is followed by such a row, and rows may be taken together before or
after the atom. -/
theorem rowAfter_closed_form {atom : Atom} (hc : atom.IsConcrete) (text : Text) :
    (∀ previous : Row, atom.repeatable = false →
      ∃ row, rowAfter atom previous text = .ok row ∧
        row.length = 1 + min previous.length text.length ∧ row[0]? = some false ∧
        ∀ j, row[j + 1]? = some true ↔ previous[j]? = some true ∧ atom.AcceptsAt text j) ∧
    (∀ previous : Row, atom.repeatable = true →
      (∀ fault, rowAfter atom previous text = .error fault ↔
        previous = [] ∧ fault = .emptyRow) ∧
      (previous ≠ [] → ∃ row, rowAfter atom previous text = .ok row ∧
        row.length = 1 + min (previous.length - 1) text.length ∧
        ∀ j < row.length, row[j]? = some true ↔
          ∃ i ≤ j, previous[i]? = some true ∧ ∀ k, i ≤ k → k < j → atom.AcceptsAt text k)) ∧
    (∀ previous : Row, previous.length = text.length + 1 →
      ∃ row, rowAfter atom previous text = .ok row ∧ row.length = text.length + 1) ∧
    (∀ first second : Row, first.length = second.length →
      rowAfter atom (either first second) text =
        either <$> rowAfter atom first text <*> rowAfter atom second text) := by
  refine ⟨fun previous hr => rowAfter_plain_closed hc hr previous text,
    fun previous hr => ⟨fun fault => ?_, fun hp => rowAfter_repeatable_closed hc hr hp text⟩,
    fun previous hlen => ?_, fun first second h => rowAfter_either hc h text⟩
  · cases previous with
    | nil =>
        rw [rowAfter_repeatable_nil hc hr, Except.error.injEq]
        simp [eq_comm]
    | cons start later => simp [rowAfter_repeatable hc hr]
  · cases hr : atom.repeatable with
    | false =>
        obtain ⟨row, hrow, hlength, -⟩ := rowAfter_plain_closed hc hr previous text
        exact ⟨row, hrow, by omega⟩
    | true =>
        have hp : previous ≠ [] := List.ne_nil_of_length_eq_add_one hlen
        obtain ⟨row, hrow, hlength, -⟩ := rowAfter_repeatable_closed hc hr hp text
        exact ⟨row, hrow, by omega⟩

/-- Rows that are longer and shorter than the text: the entry in column 1 is carried over the second
letter but not over the third, and a short row yields a short row. -/
theorem row_after_rows_that_do_not_fit :
    (∃ row, rowAfter (.literal 'a' true) [false, true, false, false, false, true]
        ['a', 'a', 'b'] = .ok row ∧
      row.length = 4 ∧ row[2]? = some true ∧ row[3]? ≠ some true) ∧
    ∃ row, rowAfter (.literal 'a' false) [true] ['a', 'b'] = .ok row ∧
      row.length = 2 ∧ row[1]? = some true := by
  have hrepeated : (Atom.literal 'a' true).IsConcrete := by decide
  have hplain : (Atom.literal 'a' false).IsConcrete := by decide
  obtain ⟨-, hclosed, -, -⟩ := rowAfter_closed_form hrepeated ['a', 'a', 'b']
  obtain ⟨row, hrow, hlength, hentry⟩ :=
    (hclosed [false, true, false, false, false, true] rfl).2 (by decide)
  obtain ⟨hclosed', -, -, -⟩ := rowAfter_closed_form hplain ['a', 'b']
  obtain ⟨row', hrow', hlength', -, hentry'⟩ := hclosed' [true] rfl
  refine ⟨⟨row, hrow, hlength, (hentry 2 ?_).2 ⟨1, by decide, rfl, fun k hk hlt => ?_⟩, ?_⟩,
    row', hrow', hlength', (hentry' 0).2 ⟨rfl, 'a', rfl, rfl⟩⟩
  · rw [hlength]
    decide
  · obtain rfl : k = 1 := by omega
    exact ⟨'a', rfl, rfl⟩
  · obtain rfl : [false, true, true, false] = row := Except.ok.inj hrow
    decide

end Table

end StarPattern
