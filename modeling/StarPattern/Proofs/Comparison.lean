/-
**Patterns compared.**

Some patterns match the same texts though they are made of different atoms, and some match all that
others match.  A repeatable atom may be written several times in a row, and repeatable atoms may
stand next to a repeatable wildcard, without any difference to what is matched, whatever stands
before and behind them.  An atom that accepts more, or that may be repeated, loses no match.  Since
both engines decide what is matched, they decide alike for the ones, and say yes to the others
wherever they say yes.

Main definitions:

* `StarPattern.Atom.Covers` — one atom is at least as general as another.

Main results:

* `StarPattern.Matches.replicate_iff`, `StarPattern.Matches.around_wildcard` — **repeatable atoms in
  a row**, and around a repeatable wildcard;
* `StarPattern.Matches.of_covers` — **more general atoms** match at least the same texts;
* `StarPattern.chained_repeats_collapse`, `StarPattern.covering_pattern_keeps_matches` — the same
  about the engines, and about the entries of the table.
-/
import Mathlib.Data.List.Forall2
import StarPattern.Proofs.Agreement

set_option relaxedAutoImplicit false
set_option autoImplicit false

namespace StarPattern

variable {atom general special : Atom} {front back inner inner' before after : List Atom}
variable {generals specials : List Atom} {text : Text} {c : Char} {k : Nat}

namespace Matches

/-! ### Repeatable atoms in a row -/

/-- What stands between other atoms may be exchanged for what matches the same texts. -/
theorem inner_congr (h : ∀ text, Matches inner text ↔ Matches inner' text) :
    Matches (front ++ inner ++ back) text ↔ Matches (front ++ inner' ++ back) text := by
  simp only [append_iff, h]

/-- **A repeatable atom several times in a row** matches what it matches alone. -/
theorem replicate_iff (hr : atom.repeatable = true) (hk : 0 < k) :
    Matches (List.replicate k atom) text ↔ Matches [atom] text := by
  obtain ⟨n, rfl⟩ : ∃ n, k = n + 1 := ⟨k - 1, by omega⟩
  clear hk
  induction n generalizing text with
  | zero => rfl
  | succ n ih =>
      rw [List.replicate_succ, ← List.singleton_append, append_iff]
      simp only [ih, singleton_repeatable_iff hr]
      constructor
      · intro h
        obtain ⟨first, second, rfl, hfirst, hsecond⟩ := h
        exact List.forall_mem_append.2 ⟨hfirst, hsecond⟩
      · intro h
        exact ⟨text, [], by simp, h, List.forall_mem_nil _⟩

/-- A repeatable wildcard matches every text. -/
theorem wildcard (text : Text) : Matches [.wildcard true] text :=
  (singleton_repeatable_iff rfl).2 fun _ _ => rfl

/-- **Around a repeatable wildcard** repeatable atoms can leave every text to it. -/
theorem around_wildcard (hb : ∀ atom ∈ before, atom.repeatable = true)
    (ha : ∀ atom ∈ after, atom.repeatable = true) (text : Text) :
    Matches (before ++ [.wildcard true] ++ after) text := by
  have hbefore : Matches before [] := nil_right_iff.2 hb
  have hafter : Matches after [] := nil_right_iff.2 ha
  simpa using (hbefore.append (wildcard text)).append hafter

end Matches

/-! ### More general atoms -/

/-- The one atom accepts all that the other accepts, and may be repeated if the other may. -/
structure Atom.Covers (general special : Atom) : Prop where
  kind : general.kind = .wildcard ∨ general.kind = special.kind
  repeatable : special.repeatable = true → general.repeatable = true

theorem Atom.Covers.accepts (h : general.Covers special) (hc : special.accepts c = true) :
    general.accepts c = true := by
  rw [Atom.accepts_eq_true_iff] at hc ⊢
  rcases h.kind with hwildcard | hsame
  · exact Or.inl hwildcard
  · rwa [hsame]

/-- **More general atoms** lose no match. -/
theorem Matches.of_covers (hm : Matches specials text)
    (h : List.Forall₂ Atom.Covers generals specials) : Matches generals text := by
  -- on the derivation, in which each special atom is met by the general one in its place
  induction hm generalizing generals with
  | nil =>
      cases h
      exact Matches.nil
  | one _ hc _ ih =>
      cases h with
      | @cons general _ rest _ hcovers hrest =>
          cases hg : general.repeatable with
          | false => exact Matches.one hg (hcovers.accepts hc) (ih hrest)
          | true => exact Matches.more hg (hcovers.accepts hc) (Matches.skip hg (ih hrest))
  | skip hr _ ih =>
      cases h with
      | cons hcovers hrest => exact Matches.skip (hcovers.repeatable hr) (ih hrest)
  | more hr hc _ ih =>
      cases h with
      | cons hcovers hrest =>
          exact Matches.more (hcovers.repeatable hr) (hcovers.accepts hc)
            (ih (List.Forall₂.cons hcovers hrest))

/-! ### The engines -/

/-- Two patterns that match the same texts are decided alike. -/
theorem Engine.exists_accepts_both {engine : Engine} (he : engine ≠ .abstract)
    {first second : Pattern} (hf : first.IsConcrete) (hs : second.IsConcrete) {source : Source}
    (h : source.toText = .ok text) (same : Matches first.atoms text ↔ Matches second.atoms text) :
    ∃ matched, engine.accepts (.valid first) source = .ok matched ∧
      engine.accepts (.valid second) source = .ok matched := by
  obtain ⟨matched, hm, hiff⟩ := Engine.exists_accepts_of_toText he hf h
  obtain ⟨matched', hm', hiff'⟩ := Engine.exists_accepts_of_toText he hs h
  obtain rfl : matched = matched' := by rw [Bool.eq_iff_iff, hiff, hiff', same]
  exact ⟨matched, hm, hm'⟩

theorem Pattern.isConcrete_append_iff :
    Pattern.IsConcrete ⟨front ++ back⟩ ↔ Pattern.IsConcrete ⟨front⟩ ∧ Pattern.IsConcrete ⟨back⟩ :=
  List.forall_mem_append

theorem Pattern.isConcrete_singleton (hc : atom.IsConcrete) : Pattern.IsConcrete ⟨[atom]⟩ :=
  List.forall_mem_singleton.2 hc

/-- **Chained repeats collapse.**  Between any atoms that are not abstract, and for both engines and
every text, however it is handed over: a repeatable atom that stands there any number of times, at
least once, is decided as if it stood there once, and repeatable atoms before and behind a
repeatable wildcard, in whatever mixture, are decided as if the wildcard stood there alone. -/
theorem chained_repeats_collapse {engine : Engine} (he : engine ≠ .abstract)
    {front back : List Atom} (hf : ∀ atom ∈ front, atom.IsConcrete)
    (hb : ∀ atom ∈ back, atom.IsConcrete) {source : Source} {text : Text}
    (h : source.toText = .ok text) :
    (∀ (atom : Atom) (k : Nat), atom.IsConcrete → atom.repeatable = true → 0 < k →
      ∃ matched,
        engine.accepts (.valid ⟨front ++ List.replicate k atom ++ back⟩) source = .ok matched ∧
        engine.accepts (.valid ⟨front ++ [atom] ++ back⟩) source = .ok matched) ∧
    (∀ before after : List Atom,
      (∀ atom ∈ before ++ after, atom.IsConcrete ∧ atom.repeatable = true) →
      ∃ matched,
        engine.accepts (.valid ⟨front ++ before ++ [.wildcard true] ++ after ++ back⟩) source =
          .ok matched ∧
        engine.accepts (.valid ⟨front ++ [.wildcard true] ++ back⟩) source = .ok matched) := by
  have hwhole : ∀ inner, Pattern.IsConcrete ⟨inner⟩ →
      Pattern.IsConcrete ⟨front ++ inner ++ back⟩ := fun inner hinner =>
    Pattern.isConcrete_append_iff.2 ⟨Pattern.isConcrete_append_iff.2 ⟨hf, hinner⟩, hb⟩
  constructor
  · intro atom k hc hr hk
    have hmany : Pattern.IsConcrete ⟨List.replicate k atom⟩ := fun other hother => by
      rwa [List.eq_of_mem_replicate hother]
    exact Engine.exists_accepts_both he (hwhole _ hmany)
      (hwhole _ (Pattern.isConcrete_singleton hc)) h
      (Matches.inner_congr fun _ => Matches.replicate_iff hr hk)
  · intro before after hrest
    rw [List.forall_mem_append] at hrest
    obtain ⟨hbefore, hafter⟩ := hrest
    have hone : Pattern.IsConcrete ⟨[.wildcard true]⟩ := Pattern.isConcrete_singleton (by decide)
    have hall : Pattern.IsConcrete ⟨before ++ [.wildcard true] ++ after⟩ :=
      Pattern.isConcrete_append_iff.2 ⟨Pattern.isConcrete_append_iff.2
        ⟨fun atom ha => (hbefore atom ha).1, hone⟩, fun atom ha => (hafter atom ha).1⟩
    have hsame : ∀ text, Matches (before ++ [.wildcard true] ++ after) text ↔
        Matches [.wildcard true] text := fun text =>
      iff_of_true (Matches.around_wildcard (fun atom ha => (hbefore atom ha).2)
        (fun atom ha => (hafter atom ha).2) text) (Matches.wildcard text)
    have hsplit : front ++ before ++ [.wildcard true] ++ after ++ back =
        front ++ (before ++ [.wildcard true] ++ after) ++ back := by simp
    rw [hsplit]
    exact Engine.exists_accepts_both he (hwhole _ hall) (hwhole _ hone) h
      (Matches.inner_congr hsame)

/-- Twenty-five repeatable literals in a row, between two others, decide as one of them; and so does
a repeatable wildcard among them. -/
theorem decisions_of_chained_repeats :
    Engine.automaton.accepts
        (.valid ⟨[.literal 'c' false] ++ List.replicate 25 (.literal 'a' true) ++
          [.literal 'b' false]⟩) (.text ['c', 'a', 'a', 'b']) = .ok true ∧
      Engine.automaton.accepts
        (.valid ⟨[.literal 'c' false] ++ [.literal 'a' true, .literal 'd' true] ++
          [.wildcard true] ++ [.literal 'a' true] ++ [.literal 'b' false]⟩)
        (.text ['c', 'a', 'a', 'b']) = .ok true := by
  obtain ⟨hsame, hmixed⟩ := @chained_repeats_collapse .automaton (by decide) [.literal 'c' false]
    [.literal 'b' false] (by decide) (by decide) (.text ['c', 'a', 'a', 'b']) _ rfl
  constructor
  · obtain ⟨matched, hmany, hone⟩ := hsame (.literal 'a' true) 25 (by decide) rfl (by decide)
    obtain rfl : true = matched := Except.ok.inj hone
    exact hmany
  · obtain ⟨matched, hmany, hone⟩ :=
      hmixed [.literal 'a' true, .literal 'd' true] [.literal 'a' true] (by decide)
    obtain rfl : true = matched := Except.ok.inj hone
    exact hmany

/-- **A covering pattern keeps all matches.**  Let the atoms of one pattern be at least as general
as those of another, place by place: each is a wildcard or of the same kind as the one in its place,
and repeatable if that one is.  Then both engines decide about every text, however it is handed
over, and say yes for the general pattern where they say yes for the special one; and in the full
tables for any text, every entry that holds for the special pattern holds for the general one. -/
theorem covering_pattern_keeps_matches {general special : Pattern} (hg : general.IsConcrete)
    (hs : special.IsConcrete) (h : List.Forall₂ Atom.Covers general.atoms special.atoms) :
    (∀ engine : Engine, engine ≠ .abstract → ∀ (source : Source) (text : Text),
      source.toText = .ok text →
      ∃ byGeneral bySpecial, engine.accepts (.valid general) source = .ok byGeneral ∧
        engine.accepts (.valid special) source = .ok bySpecial ∧
        (bySpecial = true → byGeneral = true)) ∧
    (∀ text : Text, ∃ generalRows specialRows,
      Table.allRows text (Table.firstRow text) general.atoms = .ok generalRows ∧
      Table.allRows text (Table.firstRow text) special.atoms = .ok specialRows ∧
      generalRows.length = specialRows.length ∧
      ∀ i j : Nat, Table.entry? (Table.firstRow text :: specialRows) i j = some true →
        Table.entry? (Table.firstRow text :: generalRows) i j = some true) := by
  constructor
  · intro engine he source text hsource
    obtain ⟨byGeneral, hbyGeneral, hgeneral⟩ := Engine.exists_accepts_of_toText he hg hsource
    obtain ⟨bySpecial, hbySpecial, hspecial⟩ := Engine.exists_accepts_of_toText he hs hsource
    refine ⟨byGeneral, bySpecial, hbyGeneral, hbySpecial, fun hyes => ?_⟩
    exact hgeneral.2 ((hspecial.1 hyes).of_covers h)
  · intro text
    have hfirst := Table.firstRow_describes text
    obtain ⟨generalRows, hgeneralRows, hgeneralLength, hgeneral⟩ :=
      Table.allRows_describes hfirst hg
    obtain ⟨specialRows, hspecialRows, hspecialLength, hspecial⟩ :=
      Table.allRows_describes hfirst hs
    have hlength : generalRows.length = specialRows.length := by
      rw [hgeneralLength, hspecialLength, h.length_eq]
    refine ⟨generalRows, specialRows, hgeneralRows, hspecialRows, hlength, fun i j hentry => ?_⟩
    rw [Table.entry?_eq_some_true_iff hspecial] at hentry
    rw [Table.entry?_eq_some_true_iff hgeneral]
    obtain ⟨hi, hj, hm⟩ := hentry
    refine ⟨by simpa [hlength] using hi, hj, hm.of_covers (List.forall₂_take i h)⟩

/-- A literal that is not repeatable gives way to a repeatable wildcard: the text is still matched,
here given as bytes, and so is its first character by the first atom. -/
theorem matches_kept_by_a_wildcard :
    Engine.automaton.accepts (.valid ⟨[.wildcard true, .literal 'b' true]⟩)
        (.bytes [0x61, 0x62, 0x62]) = .ok true ∧
      ∃ rows, Table.allRows ['a', 'b', 'b'] (Table.firstRow ['a', 'b', 'b'])
          [.wildcard true, .literal 'b' true] = .ok rows ∧
        Table.entry? (Table.firstRow ['a', 'b', 'b'] :: rows) 1 1 = some true := by
  obtain ⟨hdecided, hrows⟩ := @covering_pattern_keeps_matches
    ⟨[.wildcard true, .literal 'b' true]⟩ ⟨[.literal 'a' false, .literal 'b' true]⟩
    (by decide) (by decide)
    (.cons ⟨Or.inl rfl, by decide⟩ (.cons ⟨Or.inr rfl, by decide⟩ .nil))
  obtain ⟨byGeneral, bySpecial, hgeneral, hspecial, hkept⟩ :=
    hdecided .automaton (by decide) (.bytes [0x61, 0x62, 0x62]) ['a', 'b', 'b'] rfl
  obtain rfl : true = bySpecial := Except.ok.inj hspecial
  obtain ⟨generalRows, specialRows, hgeneralRows, hspecialRows, -, hentries⟩ :=
    hrows ['a', 'b', 'b']
  obtain rfl : [[false, true, false, false], [false, true, true, true]] = specialRows :=
    Except.ok.inj hspecialRows
  exact ⟨by rw [hgeneral, hkept rfl], generalRows, hgeneralRows, hentries 1 1 rfl⟩

end StarPattern
