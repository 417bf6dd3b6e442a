/-
**What the rows of the table say.**

Entry `j` of the row after some atoms is to say whether these atoms match the first `j` characters
of the text.  This module states that as a property of a row and proves that the first row has it,
and that one more atom keeps it.  So every row of the full table has it.

Main definitions:

* `StarPattern.Table.Describes` — a row says what the atoms before it match.

Main results:

* `StarPattern.Table.plainRow_succ_iff`, `StarPattern.Table.repeatedRow_succ_iff` — an entry of a
  new row by the entries before it, for rows of any lengths;
* `StarPattern.Table.Describes.next` — **one more atom**;
* `StarPattern.Table.Describes.any_eq_false` — after a row without a match no other has one;
* `StarPattern.Table.allRows_describes` — **every row** of the full table.
-/
import StarPattern.Proofs.Matching
import StarPattern.Table

set_option relaxedAutoImplicit false
set_option autoImplicit false

namespace StarPattern

namespace Table

variable {atom : Atom} {atoms rest : List Atom} {text : Text} {row previous later hits : Row}
variable {start : Bool} {j : Nat}

/-! ### Rows of any length -/

theorem length_plainRow (previous hits : Row) :
    (plainRow previous hits).length = min previous.length hits.length + 1 := by
  simp [plainRow]

theorem getElem?_plainRow_zero (previous hits : Row) :
    (plainRow previous hits)[0]? = some false := rfl

theorem plainRow_succ_iff :
    (plainRow previous hits)[j + 1]? = some true ↔
      previous[j]? = some true ∧ hits[j]? = some true := by
  rw [plainRow, List.getElem?_cons_succ, List.getElem?_zipWith]
  cases previous[j]? <;> cases hits[j]? <;> simp

theorem length_repeatedRow (start : Bool) (later hits : Row) :
    (repeatedRow start later hits).length = min later.length hits.length + 1 := by
  simp [repeatedRow]

theorem getElem?_repeatedRow_zero (start : Bool) (later hits : Row) :
    (repeatedRow start later hits)[0]? = some start := by
  simp [repeatedRow]

/-- After its first entry, a repeated row takes over a match or extends its own last one. -/
theorem repeatedRow_succ_iff (hl : j < later.length) (hh : j < hits.length) :
    (repeatedRow start later hits)[j + 1]? = some true ↔
      later[j]? = some true ∨
        (hits[j]? = some true ∧ (repeatedRow start later hits)[j]? = some true) := by
  obtain ⟨reached, hr⟩ : ∃ reached, (repeatedRow start later hits)[j]? = some reached := by
    have hj : j < (repeatedRow start later hits).length := by
      rw [length_repeatedRow]
      omega
    exact ⟨_, List.getElem?_eq_getElem hj⟩
  have hz : (later.zip hits)[j]? = some (later[j], hits[j]) := by
    rw [List.getElem?_eq_getElem (by simp; omega), List.getElem_zip]
  rw [hr, repeatedRow, List.getElem?_succ_scanl, hz]
  rw [repeatedRow] at hr
  rw [hr]
  simp [List.getElem?_eq_getElem hl, List.getElem?_eq_getElem hh]

/-! ### The row after one more atom -/

theorem rowAfter_plain (hc : atom.IsConcrete) (hr : atom.repeatable = false) (previous : Row)
    (text : Text) :
    rowAfter atom previous text = .ok (plainRow previous (text.map atom.accepts)) := by
  simp [rowAfter, Atom.hits_of_isConcrete hc, hr, bind, Except.bind, pure, Except.pure]

theorem rowAfter_repeatable (hc : atom.IsConcrete) (hr : atom.repeatable = true) (start : Bool)
    (later : Row) (text : Text) :
    rowAfter atom (start :: later) text =
      .ok (repeatedRow start later (text.map atom.accepts)) := by
  simp [rowAfter, Atom.hits_of_isConcrete hc, hr, bind, Except.bind, pure, Except.pure]

/-- The row has an entry for each prefix of the text, which says whether the atoms match it. -/
structure Describes (row : Row) (atoms : List Atom) (text : Text) : Prop where
  length_eq : row.length = text.length + 1
  holds_iff {j : Nat} : j ≤ text.length → (row[j]? = some true ↔ Matches atoms (text.take j))

theorem firstRow_describes (text : Text) : Describes (firstRow text) [] text where
  length_eq := by simp [firstRow]
  holds_iff {j} hj := by
    rw [Matches.nil_left_iff, List.take_eq_nil_iff]
    cases j with
    | zero => simp [firstRow]
    | succ j =>
        have ht : text ≠ [] := List.ne_nil_of_length_pos (by omega)
        simp [firstRow, ht, List.getElem?_replicate]

namespace Describes

/-- An atom that is not repeatable moves every match on by one character. -/
theorem plain (h : Describes row atoms text) (hr : atom.repeatable = false) :
    Describes (plainRow row (text.map atom.accepts)) (atoms ++ [atom]) text where
  length_eq := by
    rw [length_plainRow, h.length_eq, List.length_map]
    omega
  holds_iff {j} hj := by
    cases j with
    | zero =>
        rw [getElem?_plainRow_zero, List.take_zero]
        simp [Matches.not_concat_plain_nil hr]
    | succ j =>
        have hc : text[j]? = some text[j] := List.getElem?_eq_getElem hj
        rw [plainRow_succ_iff, h.holds_iff (by omega), List.take_add_one, hc, Option.toList_some,
          Matches.concat_plain_iff hr, List.getElem?_map, hc]
        simp

/-- A repeatable atom keeps every match, and extends it. -/
theorem repeated {start : Bool} {later : Row} (h : Describes (start :: later) atoms text)
    (hr : atom.repeatable = true) :
    Describes (repeatedRow start later (text.map atom.accepts)) (atoms ++ [atom]) text where
  length_eq := by
    have hl : later.length = text.length := by simpa using h.length_eq
    rw [length_repeatedRow, hl, List.length_map]
    omega
  holds_iff {j} hj := by
    have hl : later.length = text.length := by simpa using h.length_eq
    -- along the row, since an entry extends the one before it
    induction j with
    | zero =>
        have h0 := h.holds_iff (Nat.zero_le _)
        rw [getElem?_repeatedRow_zero, List.take_zero, Matches.nil_right_iff,
          List.forall_mem_append, ← Matches.nil_right_iff]
        rw [List.getElem?_cons_zero, List.take_zero] at h0
        simp [h0, hr]
    | succ j ih =>
        have hc : text[j]? = some text[j] := List.getElem?_eq_getElem hj
        have hs := h.holds_iff hj
        have hprev : (repeatedRow start later (text.map atom.accepts))[j]? = some true ↔
            Matches (atoms ++ [atom]) (text.take j) := ih (by omega)
        rw [List.getElem?_cons_succ] at hs
        rw [repeatedRow_succ_iff (by omega) (by rw [List.length_map]; omega), hs, hprev,
          List.take_add_one, hc, Option.toList_some, Matches.concat_repeatable_iff hr,
          List.getElem?_map, hc]
        simp [and_comm]

/-- **One more atom**: the row after it is computed, and says what the atoms with it match. -/
theorem next (h : Describes row atoms text) (hc : atom.IsConcrete) :
    ∃ new, rowAfter atom row text = .ok new ∧ Describes new (atoms ++ [atom]) text := by
  cases hr : atom.repeatable with
  | false => exact ⟨_, rowAfter_plain hc hr row text, h.plain hr⟩
  | true =>
      obtain ⟨start, later, rfl⟩ : ∃ start later, row = start :: later :=
        List.exists_cons_of_length_eq_add_one h.length_eq
      exact ⟨_, rowAfter_repeatable hc hr start later text, h.repeated hr⟩

/-- The last entry is the one for the whole text. -/
theorem getLastD_eq_true_iff (h : Describes row atoms text) :
    row.getLastD false = true ↔ Matches atoms text := by
  have hlast := h.holds_iff (Nat.le_refl text.length)
  rw [List.take_length] at hlast
  rw [← hlast, List.getLastD_eq_getLast?, List.getLast?_eq_getElem?, h.length_eq,
    Nat.add_sub_cancel]
  cases row[text.length]? <;> simp

/-- A row holds a match where the atoms match some prefix of the text. -/
theorem any_iff (h : Describes row atoms text) :
    row.any id = true ↔ ∃ first, first <+: text ∧ Matches atoms first := by
  rw [List.any_eq_true]
  constructor
  · rintro ⟨entry, hmem, rfl⟩
    obtain ⟨j, hj⟩ := List.mem_iff_getElem?.1 hmem
    have hlt : j < row.length := (List.getElem?_eq_some_iff.1 hj).1
    have hle : j ≤ text.length := by
      have := h.length_eq
      omega
    exact ⟨text.take j, List.take_prefix j text, (h.holds_iff hle).1 hj⟩
  · rintro ⟨first, hpre, hm⟩
    rw [List.prefix_iff_eq_take] at hpre
    rw [hpre] at hm
    have hle : first.length ≤ text.length := by
      rw [hpre]
      exact List.length_take_le' _ _
    exact ⟨true, List.mem_of_getElem? ((h.holds_iff hle).2 hm), rfl⟩

/-- After a row without a match no prefix of the text is matched, whatever atoms follow. -/
theorem not_matches_prefix (h : Describes row atoms text) (hn : row.any id = false)
    {first : Text} (hpre : first <+: text) (rest : List Atom) :
    ¬ Matches (atoms ++ rest) first := by
  intro hm
  rw [← Bool.not_eq_true, h.any_iff] at hn
  obtain ⟨before, hbefore, hm⟩ := hm.exists_prefix
  exact hn ⟨before, hbefore.trans hpre, hm⟩

/-- **A row without a match** is followed by rows without a match. -/
theorem any_eq_false (h : Describes row atoms text) (hn : row.any id = false) {new : Row}
    (hd : Describes new (atoms ++ rest) text) : new.any id = false := by
  rw [← Bool.not_eq_true, hd.any_iff]
  rintro ⟨first, hpre, hm⟩
  exact h.not_matches_prefix hn hpre rest hm

end Describes

/-! ### The full table -/

/-- **Every row** of the full table says what the atoms up to it match. -/
theorem allRows_describes (h : Describes row atoms text) (hc : ∀ atom ∈ rest, atom.IsConcrete) :
    ∃ rows, allRows text row rest = .ok rows ∧ rows.length = rest.length ∧
      ∀ i new, (row :: rows)[i]? = some new → Describes new (atoms ++ rest.take i) text := by
  -- on the atoms that are left; those before them are in what the row says
  induction rest generalizing row atoms with
  | nil =>
      refine ⟨[], rfl, rfl, ?_⟩
      intro i new hi
      obtain ⟨rfl, rfl⟩ : i = 0 ∧ row = new := by
        cases i with
        | zero => exact ⟨rfl, by simpa using hi⟩
        | succ i => simp at hi
      simpa using h
  | cons atom rest ih =>
      rw [List.forall_mem_cons] at hc
      obtain ⟨next, hn, hd⟩ := h.next hc.1
      obtain ⟨rows, hrows, hlen, hall⟩ := ih hd hc.2
      refine ⟨next :: rows, by simp [allRows, hn, hrows, bind, Except.bind, pure, Except.pure],
        by simp [hlen], ?_⟩
      intro i new hi
      cases i with
      | zero =>
          obtain rfl : row = new := by simpa using hi
          simpa using h
      | succ i => simpa using hall i new hi

end Table

end StarPattern
