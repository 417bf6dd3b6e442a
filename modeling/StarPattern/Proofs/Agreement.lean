/-
**Automaton and table agree.**

The table goes through a text atom by atom and the automaton character by character, and both say
the same about the same prefixes: a state is in the set after some characters exactly if the table
has a match there, in the row after the atoms that have been entered in that state.  So both engines
decide alike, on one text after another and on what holds no text.

Main definitions:

* `StarPattern.Table.entry?` — the entry of a table in a row and a column.

Main results:

* `StarPattern.Pattern.Tracks.mem_iff_entry` — a member of a set is an entry of the table;
* `StarPattern.Automaton.sets_correspond_to_rows` — **all sets and all rows**;
* `StarPattern.Automaton.start_accepts_eq`, `StarPattern.Engine.exists_accepts` — one decision of
  either engine;
* `StarPattern.engines_agree_on_every_sequence` — **decisions in a row**.
-/
import StarPattern.Proofs.Automaton.Prefixes
import StarPattern.Proofs.Table.Decision

set_option relaxedAutoImplicit false
set_option autoImplicit false

namespace StarPattern

/-! ### Sets of states and rows of the table -/

/-- The entry of a table in a row and a column. -/
def Table.entry? (rows : List Row) (i j : Nat) : Option Bool := rows[i]?.bind (·[j]?)

variable {pattern : Pattern} {states : StateSet} {text : Text} {source : Source} {fault : Fault}

/-- **An entry of the table** holds where the atoms up to its row match the text up to its
column. -/
theorem Table.entry?_eq_some_true_iff {rows : List Row} {atoms : List Atom} {i j : Nat}
    (hrows : ∀ i row, rows[i]? = some row → Table.Describes row (atoms.take i) text) :
    Table.entry? rows i j = some true ↔
      i < rows.length ∧ j ≤ text.length ∧ Matches (atoms.take i) (text.take j) := by
  rw [Table.entry?, Option.bind_eq_some_iff]
  constructor
  · rintro ⟨row, hi, hj⟩
    have hd := hrows i row hi
    have hlt := (List.getElem?_eq_some_iff.1 hj).1
    have hle : j ≤ text.length := by
      rw [hd.length_eq] at hlt
      omega
    exact ⟨(List.getElem?_eq_some_iff.1 hi).1, hle, (hd.holds_iff hle).1 hj⟩
  · rintro ⟨hlt, hle, hm⟩
    have hi : rows[i]? = some rows[i] := List.getElem?_eq_getElem hlt
    exact ⟨rows[i], hi, ((hrows i _ hi).holds_iff hle).2 hm⟩

/-- **A member of a set is an entry of the table**, in the row after the atoms entered. -/
theorem Pattern.Tracks.mem_iff_entry {j k : Nat} {rows : List Row}
    (h : pattern.Tracks states (text.take j)) (hlen : rows.length = pattern.length + 1)
    (hrows : ∀ i row, rows[i]? = some row → Table.Describes row (pattern.atoms.take i) text)
    (hj : j ≤ text.length) (hk : k ≤ pattern.length) :
    (k : Int) ∈ states ↔ Table.entry? rows (pattern.depth k) j = some true := by
  have hdepth := Pattern.depth_le_length hk
  have hlt : pattern.depth k < rows.length := by omega
  rw [h.mem_natCast_iff hk, Table.entry?_eq_some_true_iff hrows, and_iff_right hlt,
    and_iff_right hj]
  rfl

namespace Automaton

theorem start_walk_of_closure {first : StateSet} (h : pattern.closure [0] = .ok first)
    (text : Text) :
    ((start (.valid pattern)).walk text).1 =
      ((Parsed.valid pattern).setsFrom first text).map (first :: ·) := by
  have hclosure : (start (.valid pattern)).pattern.closure [0] = .ok first :=
    (Parsed.closure_valid pattern [0]).trans h
  rw [walk, hclosure]
  exact congrArg (Except.map (first :: ·)) (walkFrom_fst (start_truthful _) first text)

/-- An automaton walks along every text without a fault, and each of its sets tracks a prefix. -/
theorem start_walk_tracks (hc : pattern.IsConcrete) (text : Text) :
    ∃ sets, ((start (.valid pattern)).walk text).1 = .ok sets ∧
      sets.length = text.length + 1 ∧
      ∀ j states, sets[j]? = some states → pattern.Tracks states (text.take j) := by
  obtain ⟨first, hfirst, htracks⟩ := pattern.closure_start
  obtain ⟨later, hlater, hlen, hall⟩ := htracks.setsFrom hc text
  refine ⟨first :: later, ?_, by simp [hlen], fun j states hj => by simpa using hall j states hj⟩
  rw [start_walk_of_closure hfirst, hlater]
  rfl

/-! ### Decisions -/

/-- A source that holds no text is a fault, after which nothing is known. -/
theorem start_accepts_of_error (h : source.toText = .error fault) :
    (start (.valid pattern)).accepts source = (.error fault, start (.valid pattern)) := by
  obtain ⟨first, hfirst, -⟩ := pattern.closure_start
  rw [accepts]
  simp only [start, hfirst, h]
  rfl

/-- A new automaton follows the text from the first set, and decides by where that ends. -/
theorem start_accepts_eq_follow {first : StateSet} (hf : pattern.closure [0] = .ok first)
    (h : source.toText = .ok text) :
    (start (.valid pattern)).accepts source =
      (((start (.valid pattern)).follow first text).1.map
          fun reached => decide (pattern.final ∈ reached),
        ((start (.valid pattern)).follow first text).2) := by
  rw [accepts]
  simp only [start, hf, h]
  rfl

theorem start_accepts_fst {first : StateSet} (hf : pattern.closure [0] = .ok first)
    (h : source.toText = .ok text) :
    ((start (.valid pattern)).accepts source).1 =
      ((Parsed.valid pattern).follow first text).map
        fun reached => decide (pattern.final ∈ reached) := by
  rw [start_accepts_eq_follow hf h]
  exact congrArg (Except.map fun reached => decide (pattern.final ∈ reached))
    (follow_fst (start_truthful _) first text)

theorem start_accepts_of_toText (hc : pattern.IsConcrete) (h : source.toText = .ok text) :
    ∃ matched, ((start (.valid pattern)).accepts source).1 = .ok matched ∧
      (matched = true ↔ Matches pattern.atoms text) := by
  obtain ⟨first, hfirst, htracks⟩ := pattern.closure_start
  obtain ⟨reached, hreached, hfinal⟩ := htracks.follow hc text
  refine ⟨decide (pattern.final ∈ reached), ?_, by rw [decide_eq_true_iff, hfinal]; rfl⟩
  rw [start_accepts_fst hfirst h, hreached]
  rfl

/-- **All sets and all rows.**  For every pattern without abstract atoms, every history of its
automaton and every text: the full table has a row after each atom, the automaton walks along the
text without a fault, and all its states count atoms from the front.  A state is in the set after
`j` characters exactly if the table has a match in column `j`, in the row after the atom at the
state if that atom is repeatable, and else in the row before it.  The decision is whether the final
state is in the last set, though following the text ends at the first empty one. -/
theorem sets_correspond_to_rows (hc : pattern.IsConcrete) (history : List Request) (text : Text) :
    ∃ rows sets last,
      Table.allRows text (Table.firstRow text) pattern.atoms = .ok rows ∧
      rows.length = pattern.length ∧
      (((start (.valid pattern)).after history).walk text).1 = .ok sets ∧
      sets.length = text.length + 1 ∧
      (∀ (j : Nat) states, sets[j]? = some states →
        (∀ state ∈ states, 0 ≤ state ∧ state ≤ pattern.length) ∧
        (∀ (k : Nat) atom, pattern.atoms[k]? = some atom → atom.repeatable = true →
          ((k : Int) ∈ states ↔
            Table.entry? (Table.firstRow text :: rows) (k + 1) j = some true)) ∧
        (∀ k : Nat, k ≤ pattern.length →
          (∀ atom, pattern.atoms[k]? = some atom → atom.repeatable = false) →
          ((k : Int) ∈ states ↔
            Table.entry? (Table.firstRow text :: rows) k j = some true))) ∧
      sets.getLast? = some last ∧
      (((start (.valid pattern)).after history).accepts (.text text)).1 =
        .ok (decide (pattern.final ∈ last)) := by
  obtain ⟨rows, hrows, hlen, hdescribes⟩ :=
    Table.allRows_describes (Table.firstRow_describes text) hc
  obtain ⟨sets, hsets, hsetslen, htracks⟩ := start_walk_tracks hc text
  obtain ⟨last, hlast⟩ : ∃ last, sets[text.length]? = some last :=
    ⟨_, List.getElem?_eq_getElem (by omega)⟩
  obtain ⟨matched, hmatched, hiff⟩ := start_accepts_of_toText hc (Source.toText_text text)
  have hpattern : ((start (.valid pattern)).after history).pattern = .valid pattern :=
    after_pattern _ history
  refine ⟨rows, sets, last, hrows, hlen, ?_, hsetslen, ?_, ?_, ?_⟩
  · rw [walk_congr (after_truthful (start_truthful _) history), hpattern, hsets]
  · intro j states hj
    have hjlt : j ≤ text.length := by
      have := (List.getElem?_eq_some_iff.1 hj).1
      omega
    have hstates := htracks j states hj
    have hentry : ∀ k, k ≤ pattern.length → ((k : Int) ∈ states ↔
        Table.entry? (Table.firstRow text :: rows) (pattern.depth k) j = some true) :=
      fun k hk => hstates.mem_iff_entry (by rw [List.length_cons, hlen]; rfl) hdescribes hjlt hk
    refine ⟨hstates.bounds, ?_, ?_⟩
    · intro k atom hk hr
      have hle : k ≤ pattern.length := Nat.le_of_lt (List.getElem?_eq_some_iff.1 hk).1
      rw [hentry k hle, Pattern.depth, Pattern.repeatableAt_of_getElem? hk, if_pos hr]
    · intro k hle hr
      have hplain : pattern.repeatableAt k = false := by
        cases hk : pattern.atoms[k]? with
        | none => rw [Pattern.repeatableAt, hk, Option.any_none]
        | some atom => rw [Pattern.repeatableAt_of_getElem? hk, hr atom hk]
      rw [hentry k hle, Pattern.depth, hplain, if_neg Bool.false_ne_true]
  · rw [List.getLast?_eq_getElem?, hsetslen, Nat.add_sub_cancel, hlast]
  · have hfinal := (htracks _ last hlast).final_mem_iff
    rw [List.take_length, ← hiff] at hfinal
    rw [accepts_congr, hpattern, hmatched]
    congr 1
    rw [Bool.eq_iff_iff, decide_eq_true_iff, hfinal]

/-- Two repeatable atoms that compete before one that is not.  After the first character the state
before the second atom is in the set, and the state before the first one is not, since the rows
after these atoms are different there. -/
theorem sets_of_competing_atoms :
    ∃ sets states,
      ((start (.valid ⟨[.literal 'a' true, .wildcard true, .literal 'a' false]⟩)).walk
        ['b', 'a']).1 = .ok sets ∧ sets[1]? = some states ∧ 1 ∈ states ∧ 0 ∉ states := by
  obtain ⟨rows, sets, last, hrows, -, hsets, hlen, hall, -, -⟩ :=
    @sets_correspond_to_rows ⟨[.literal 'a' true, .wildcard true, .literal 'a' false]⟩
      (by decide) [] ['b', 'a']
  obtain rfl : [[true, false, false], [true, true, true], [false, false, true]] = rows :=
    Except.ok.inj hrows
  obtain ⟨states, hstates⟩ : ∃ states, sets[1]? = some states :=
    ⟨_, List.getElem?_eq_getElem (by rw [hlen]; decide)⟩
  obtain ⟨-, hrepeatable, -⟩ := hall 1 states hstates
  refine ⟨sets, states, hsets, hstates, ?_, ?_⟩
  · exact (hrepeatable 1 _ rfl rfl).2 rfl
  · intro hzero
    have hentry := (hrepeatable 0 _ rfl rfl).1 hzero
    cases hentry

/-! ### Both engines -/

/-- **One decision**: a new automaton and the table agree on whatever they are handed. -/
theorem start_accepts_eq {parsed : Parsed} (hc : parsed.IsConcrete) (source : Source) :
    ((start parsed).accepts source).1 = Table.accepts parsed source := by
  cases parsed with
  | invalid => rfl
  | valid pattern =>
      cases h : source.toText with
      | error fault => rw [start_accepts_of_error h, Table.accepts_of_error h]
      | ok text =>
          obtain ⟨matched, hm, hiff⟩ := start_accepts_of_toText hc h
          obtain ⟨decided, hd, hiff'⟩ := Table.exists_accepts_text hc text
          rw [hm, Table.accepts_of_toText h, hd]
          congr 1
          rw [Bool.eq_iff_iff, hiff, hiff']

/-- Each decision of one automaton is that of a new one. -/
theorem acceptsAll_eq (automaton : Automaton) (sources : List Source) :
    automaton.acceptsAll sources =
      sources.map fun source => ((start automaton.pattern).accepts source).1 := by
  induction sources generalizing automaton with
  | nil => rfl
  | cons source rest ih =>
      rw [acceptsAll, List.map_cons, ih, accepts_pattern, accepts_congr]

theorem start_acceptsAll_eq {parsed : Parsed} (hc : parsed.IsConcrete) (sources : List Source) :
    (start parsed).acceptsAll sources = sources.map (Table.accepts parsed) := by
  rw [acceptsAll_eq]
  exact List.map_congr_left fun source _ => start_accepts_eq hc source

end Automaton

/-- Each engine that decides at all decides whether the atoms match the text of the source, in
whatever form the text is handed over. -/
theorem Engine.exists_accepts_of_toText {engine : Engine} (he : engine ≠ .abstract)
    (hc : pattern.IsConcrete) (h : source.toText = .ok text) :
    ∃ matched, engine.accepts (.valid pattern) source = .ok matched ∧
      (matched = true ↔ Matches pattern.atoms text) := by
  cases engine with
  | table =>
      obtain ⟨matched, hm, hiff⟩ := Table.exists_accepts_text hc text
      exact ⟨matched, (Table.accepts_of_toText h).trans hm, hiff⟩
  | automaton => exact Automaton.start_accepts_of_toText hc h
  | abstract => exact absurd rfl he

theorem Engine.exists_accepts {engine : Engine} (he : engine ≠ .abstract)
    (hc : pattern.IsConcrete) (text : Text) :
    ∃ matched, engine.accepts (.valid pattern) (.text text) = .ok matched ∧
      (matched = true ↔ Matches pattern.atoms text) :=
  Engine.exists_accepts_of_toText he hc (Source.toText_text text)

theorem Engine.accepts_eq_ok_true_iff {engine : Engine} (he : engine ≠ .abstract)
    (hc : pattern.IsConcrete) :
    engine.accepts (.valid pattern) (.text text) = .ok true ↔ Matches pattern.atoms text := by
  obtain ⟨matched, hm, hiff⟩ := Engine.exists_accepts he hc text
  rw [hm, ← hiff]
  simp

theorem decideMatch_of_toText {given : Source} {signs : Text} (h : given.toText = .ok signs)
    (source : Source) :
    decideMatch given source = Table.accepts (Language.standard.interpret signs) source := by
  rw [decideMatch, h]
  rfl

/-- **Both engines agree on every sequence.**  Whatever sources are handed to one automaton one
after another, its outcomes are those of the table, decisions and faults alike; this holds for the
invalid pattern, for every pattern without abstract atoms, and so for everything that is read from
text, where the outcomes are also those for the pattern text itself.  A pattern that is valid fails
where, and as, the source fails to be text; the invalid one never does. -/
theorem engines_agree_on_every_sequence :
    (∀ parsed : Parsed, parsed.IsConcrete → ∀ sources : List Source,
      (Automaton.start parsed).acceptsAll sources = sources.map (Table.accepts parsed)) ∧
    (∀ (given : Source) (signs : Text), given.toText = .ok signs → ∀ sources : List Source,
      (Automaton.start (Language.standard.interpret signs)).acceptsAll sources =
          sources.map (decideMatch given) ∧
        sources.map (Table.accepts (Language.standard.interpret signs)) =
          sources.map (decideMatch given)) ∧
    (∀ pattern : Pattern, pattern.IsConcrete → ∀ (source : Source) (fault : Fault),
      Table.accepts (.valid pattern) source = .error fault ↔ source.toText = .error fault) ∧
    (∀ source : Source, Table.accepts .invalid source = .ok false) := by
  refine ⟨?_, ?_, ?_, ?_⟩
  · intro parsed hc sources
    exact Automaton.start_acceptsAll_eq hc sources
  · intro given signs h sources
    have htable : sources.map (Table.accepts (Language.standard.interpret signs)) =
        sources.map (decideMatch given) :=
      List.map_congr_left fun source _ => (decideMatch_of_toText h source).symm
    refine ⟨?_, htable⟩
    rw [← htable]
    exact Automaton.start_acceptsAll_eq (Language.standard.interpret_isConcrete signs) sources
  · intro pattern hc source fault
    cases h : source.toText with
    | error found => rw [Table.accepts_of_error h]; simp
    | ok text =>
        obtain ⟨matched, hm, -⟩ := Table.exists_accepts_text hc text
        rw [Table.accepts_of_toText h, hm]
        simp
  · intro source
    rfl

/-- One automaton is handed a text, bytes that are no text, a number and another text. -/
theorem outcomes_after_faults :
    (Automaton.start (.valid ⟨[.literal 'a' true, .wildcard true, .literal 'a' false]⟩)).acceptsAll
        [.text ['b', 'a'], .bytes [0xFF], .other .integer, .text ['b']] =
      [.ok true, .error (.undecodable ⟨0xFF, 0, 1, .invalidStart⟩), .error (.wrongKind .integer),
        .ok false] := by
  rw [engines_agree_on_every_sequence.1
    (.valid ⟨[.literal 'a' true, .wildcard true, .literal 'a' false]⟩) (by decide)]
  rfl

end StarPattern
