/-
**The shortcuts of the table.**

Two ways of sparing work are built into the decision: no row is computed after one that holds no
match, and none at all for the empty text.  The rows that are computed are the first ones of the
full table, so each of them says what the atoms up to it match; the rows that are left out hold no
match either; and the answer is the last entry of the row that is made by taking in all the atoms,
one after another.

Main definitions:

* `StarPattern.Table.CutOff` — the rows up to the first one without a match.

Main results:

* `StarPattern.Table.rows_of_allRows` — **the rows that are computed** are cut off the full table;
* `StarPattern.Table.foldlM_describes` — the row after all atoms;
* `StarPattern.Table.rows_mean_prefixes_and_shortcuts_agree` — all of it together.
-/
import StarPattern.Proofs.Table.Decision

set_option relaxedAutoImplicit false
set_option autoImplicit false

namespace StarPattern

namespace Table

variable {atom : Atom} {atoms rest : List Atom} {text : Text} {row next : Row}
variable {computed all later : List Row} {pattern : Pattern}

/-! ### The rows that are computed -/

/-- The first rows of the table, each but the last with a match: all of them, or up to one that has
none. -/
structure CutOff (computed all : List Row) : Prop where
  isPrefix : computed <+: all
  matched {i : Nat} {row : Row} : computed[i]? = some row → i + 1 < computed.length → true ∈ row
  complete_or_ended : computed = all ∨ ∃ row, computed.getLast? = some row ∧ true ∉ row

namespace CutOff

theorem nil : CutOff [] [] := ⟨List.prefix_rfl, by simp, Or.inl rfl⟩

/-- A row with a match is followed by what is computed after it. -/
theorem cons (h : CutOff computed later) (hn : true ∈ next) :
    CutOff (next :: computed) (next :: later) where
  isPrefix := (List.prefix_cons_inj next).2 h.isPrefix
  matched {i row} hi hlt := by
    cases i with
    | zero =>
        obtain rfl : next = row := by simpa using hi
        exact hn
    | succ i => exact h.matched (by simpa using hi) (by simpa using hlt)
  complete_or_ended := by
    rcases h.complete_or_ended with rfl | ⟨row, hlast, hrow⟩
    · exact Or.inl rfl
    · exact Or.inr ⟨row, by simp [List.getLast?_cons, hlast], hrow⟩

/-- A row without a match is the last. -/
theorem singleton (hn : true ∉ next) (later : List Row) : CutOff [next] (next :: later) where
  isPrefix := (List.prefix_cons_inj next).2 List.nil_prefix
  matched {i row} hi hlt := by simp at hlt
  complete_or_ended := Or.inr ⟨next, rfl, hn⟩

end CutOff

theorem allRows_cons_eq_ok_iff :
    allRows text row (atom :: rest) = .ok all ↔
      ∃ next later, rowAfter atom row text = .ok next ∧ allRows text next rest = .ok later ∧
        all = next :: later := by
  rw [allRows]
  cases rowAfter atom row text with
  | error fault => simp [bind, Except.bind]
  | ok next =>
      cases hl : allRows text next rest with
      | error fault => simp [bind, Except.bind, hl]
      | ok later => simp [bind, Except.bind, pure, Except.pure, hl, eq_comm]

/-- **The rows that are computed** are those of the full table up to the first one without a
match. -/
theorem rows_of_allRows (h : allRows text row atoms = .ok all) :
    ∃ computed, rows text row atoms = .ok computed ∧ CutOff computed all := by
  induction atoms generalizing row all with
  | nil =>
      obtain rfl : [] = all := Except.ok.inj h
      exact ⟨[], rfl, CutOff.nil⟩
  | cons atom rest ih =>
      obtain ⟨next, later, hr, hl, rfl⟩ := allRows_cons_eq_ok_iff.1 h
      cases hn : next.any id with
      | true =>
          obtain ⟨computed, hrows, hcut⟩ := ih hl
          exact ⟨next :: computed, by rw [rows_of_any hr hn, hrows]; rfl,
            hcut.cons (by simpa using hn)⟩
      | false => exact ⟨[next], rows_of_not_any hr hn, CutOff.singleton (by simpa using hn) later⟩

/-! ### The row after all atoms -/

/-- Taking in the atoms one after another leads to a row that says what all of them match. -/
theorem foldlM_describes (h : Describes row atoms text) (hc : ∀ atom ∈ rest, atom.IsConcrete) :
    ∃ last, rest.foldlM (fun row atom => rowAfter atom row text) row = .ok last ∧
      Describes last (atoms ++ rest) text := by
  induction rest generalizing row atoms with
  | nil => exact ⟨row, rfl, by simpa using h⟩
  | cons atom rest ih =>
      rw [List.forall_mem_cons] at hc
      obtain ⟨next, hn, hd⟩ := h.next hc.1
      obtain ⟨last, hlast, hdescribes⟩ := ih hd hc.2
      refine ⟨last, ?_, by simpa using hdescribes⟩
      rw [List.foldlM_cons, hn]
      exact hlast

theorem Describes.getLast?_eq_some_iff (h : Describes row atoms text) {matched : Bool} :
    row.getLast? = some matched ↔ (matched = true ↔ Matches atoms text) := by
  obtain ⟨entry, hentry⟩ : ∃ entry, row.getLast? = some entry := by
    have hne : row ≠ [] := List.ne_nil_of_length_pos (by rw [h.length_eq]; omega)
    exact ⟨_, List.getLast?_eq_some_getLast hne⟩
  have hlast := h.getLastD_eq_true_iff
  rw [List.getLastD_eq_getLast?, hentry, Option.getD_some] at hlast
  rw [hentry, Option.some_inj, ← hlast, Bool.eq_iff_iff]
  exact iff_comm

/-! ### The table and its shortcuts -/

/-- **The rows mean what they should and the shortcuts change nothing.**  For every pattern without
abstract atoms and every text that is not empty, each row of the full table has an entry for every
prefix of the text, which says whether the atoms up to that row match the prefix.  The rows that are
computed are the first of these, all of them or up to the first one without a match, and the rows
after one without a match have none either.  The answer is the last entry of the row that is made by
taking in all atoms.  For the empty text no row is computed, and the answer is that entry too. -/
theorem rows_mean_prefixes_and_shortcuts_agree (hc : pattern.IsConcrete) :
    (∀ text : Text, text ≠ [] →
      ∃ (all computed : List Row) (last : Row) (matched : Bool),
        allRows text (firstRow text) pattern.atoms = .ok all ∧ all.length = pattern.length ∧
        (∀ (i : Nat) row, all[i]? = some row → row.length = text.length + 1 ∧
          ∀ j ≤ text.length, row[j]? = some true ↔
            Matches (pattern.atoms.take (i + 1)) (text.take j)) ∧
        examine (.valid pattern) (.text text) = .ok ⟨computed, matched⟩ ∧
        computed <+: all ∧
        (∀ (i : Nat) row, computed[i]? = some row → i + 1 < computed.length → true ∈ row) ∧
        (computed.length = pattern.length ∨
          ∃ row, computed.getLast? = some row ∧ true ∉ row) ∧
        (∀ (i j : Nat) before after, i ≤ j → all[i]? = some before → all[j]? = some after →
          true ∉ before → true ∉ after) ∧
        pattern.atoms.foldlM (fun row atom => rowAfter atom row text) (firstRow text) =
          .ok last ∧
        last.getLast? = some matched) ∧
    examine (.valid pattern) (.text []) = .ok ⟨[], pattern.nullable⟩ ∧
    ∃ last, pattern.atoms.foldlM (fun row atom => rowAfter atom row []) [true] = .ok last ∧
      last.getLast? = some pattern.nullable := by
  refine ⟨fun text ht => ?_, rfl, ?_⟩
  · have hfirst := firstRow_describes text
    obtain ⟨all, hall, hlen, hdescribes⟩ := allRows_describes hfirst hc
    obtain ⟨computed, hcomputed, hcut⟩ := rows_of_allRows hall
    obtain ⟨last, hlast, hd⟩ := foldlM_describes hfirst hc
    obtain ⟨found, hrows, hverdict⟩ := rows_verdict hfirst hc
    cases hcomputed.symm.trans hrows
    have hrow : ∀ i row, all[i]? = some row →
        Describes row (pattern.atoms.take (i + 1)) text := fun i row hi => by
      simpa using hdescribes (i + 1) row (by simpa using hi)
    refine ⟨all, computed, last, _, hall, hlen, ?_, ?_, hcut.isPrefix,
      fun i row => hcut.matched, ?_, ?_, hlast, hd.getLast?_eq_some_iff.2 hverdict⟩
    · intro i row hi
      exact ⟨(hrow i row hi).length_eq, fun j hj => (hrow i row hi).holds_iff hj⟩
    · exact examineText_of_rows ht hcomputed
    · exact hcut.complete_or_ended.imp_left fun heq => by rw [heq, hlen]; rfl
    · intro i j before after hij hi hj hn
      -- the atoms up to the later row begin with those up to the earlier one
      obtain ⟨rest, hsplit⟩ : pattern.atoms.take (i + 1) <+: pattern.atoms.take (j + 1) :=
        List.take_prefix_take_left (Nat.succ_le_succ hij)
      have hafter := hrow j after hj
      rw [← hsplit] at hafter
      have hnone : before.any id = false := by simpa using hn
      simpa using (hrow i before hi).any_eq_false hnone hafter
  · obtain ⟨last, hlast, hd⟩ := foldlM_describes (firstRow_describes []) hc
    exact ⟨last, hlast, hd.getLast?_eq_some_iff.2 (nullable_eq_true_iff pattern)⟩

/-- The first of three rows holds no match, so it is the only one that is computed; the two rows
that are left out hold no match either, though their atoms are repeatable. -/
theorem rows_after_a_literal_that_fails :
    ∃ all, allRows ['b', 'a'] (firstRow ['b', 'a'])
        [.literal 'a' false, .wildcard true, .literal 'b' true] = .ok all ∧
      all.length = 3 ∧
      examine (.valid ⟨[.literal 'a' false, .wildcard true, .literal 'b' true]⟩)
        (.text ['b', 'a']) = .ok ⟨[[false, false, false]], false⟩ ∧
      ∀ row ∈ all, true ∉ row := by
  obtain ⟨hnonempty, -⟩ := @rows_mean_prefixes_and_shortcuts_agree
    ⟨[.literal 'a' false, .wildcard true, .literal 'b' true]⟩ (by decide)
  obtain ⟨all, computed, last, matched, hall, hlen, -, hexamine, hpre, -, -, hlater, -, -⟩ :=
    hnonempty ['b', 'a'] (by decide)
  obtain ⟨rfl, rfl⟩ : [[false, false, false]] = computed ∧ false = matched :=
    Examination.mk.inj (Except.ok.inj hexamine)
  refine ⟨all, hall, hlen, hexamine, fun row hrow => ?_⟩
  obtain ⟨rest, rfl⟩ := hpre
  obtain ⟨j, hj⟩ := List.mem_iff_getElem?.1 hrow
  exact hlater 0 j _ row (Nat.zero_le j) rfl hj (by decide)

end Table

end StarPattern
