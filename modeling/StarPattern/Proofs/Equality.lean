/-
**Equality of values.**

Equality does not depend on which of two values is asked first, though the classes of atoms have
each their own idea of it.  Where no abstract atom is involved it holds between values that are made
of the same parts, and nowhere else.  So values that are equal have equal digests, whatever digests
are made of, and the set of a list of values has one member for each value that occurs in the list.

Main definitions:

* `StarPattern.Value.IsSettled` — an atom, pattern or language without abstract atoms.

Main results:

* `StarPattern.Value.asked_eq_same`, `StarPattern.Value.askedApart_eq_differs` — **asking the
  values** comes to `StarPattern.Value.same` and `StarPattern.Value.differs`;
* `StarPattern.Atom.same_iff_eq`, `StarPattern.Pattern.same_iff_eq`,
  `StarPattern.Value.same_iff_eq` — without abstract atoms, equality is **equality of parts**;
* `StarPattern.Value.countDistinct_eq_card` — the size of the set of a list;
* `StarPattern.Value.equality_is_coherent` — all of it together.
-/
import Mathlib.Data.Finset.Card
import Mathlib.Data.List.Forall2
import StarPattern.Value.Asking

set_option relaxedAutoImplicit false
set_option autoImplicit false

namespace StarPattern

/-! ### Atoms -/

namespace Atom

variable {first second : Atom} {answer : Bool}

theorem same_comm (first second : Atom) : first.same second = second.same first := by
  rcases first with ⟨kind, repeatable⟩
  rcases second with ⟨kind', repeatable'⟩
  -- one case for each pair of classes
  cases kind <;> cases kind' <;> simp [same, Bool.beq_comm, eq_comm]

theorem same_refl (atom : Atom) : atom.same atom = true := by
  rcases atom with ⟨kind, repeatable⟩
  cases kind <;> simp [same]

/-- Atoms that are not abstract are equal just if they are made of the same parts. -/
theorem same_iff_eq (hf : first.IsConcrete) (hs : second.IsConcrete) :
    first.same second = true ↔ first = second := by
  rcases first with ⟨kind, repeatable⟩
  rcases second with ⟨kind', repeatable'⟩
  cases kind with
  | abstract => exact absurd rfl hf
  | wildcard =>
      cases kind' with
      | abstract => exact absurd rfl hs
      | wildcard => simp [same]
      | literal d => simp [same]
  | literal c =>
      cases kind' with
      | abstract => exact absurd rfl hs
      | wildcard => simp [same]
      | literal d => simp [same]

/-- An opinion is about equality. -/
theorem eq_same_of_opinion (h : first.opinion second = some answer) :
    answer = first.same second := by
  rcases first with ⟨kind, repeatable⟩
  rcases second with ⟨kind', repeatable'⟩
  cases kind <;> cases kind' <;>
    simp_all [opinion, within, same, Bool.beq_eq_decide_eq]

/-- Atoms of which neither has an opinion are of different classes. -/
theorem same_of_no_opinion (hf : first.opinion second = none) (hs : second.opinion first = none) :
    first.same second = false ∧ first ≠ second := by
  rcases first with ⟨kind, repeatable⟩
  rcases second with ⟨kind', repeatable'⟩
  cases kind <;> cases kind' <;> simp_all [opinion, within, same]

theorem asked_eq_same (first second : Atom) : first.asked second = first.same second := by
  refine consult_eq _ eq_same_of_opinion (same_comm second first) fun hf hs => ?_
  obtain ⟨hsame, hne⟩ := same_of_no_opinion hf hs
  rw [hsame, decide_eq_false hne]

end Atom

/-! ### Patterns -/

namespace Pattern

variable {first second : Pattern}

/-- Patterns are equal if they have equally many atoms, equal place by place. -/
theorem same_iff_forall₂ :
    first.same second = true ↔
      List.Forall₂ (fun a b => Atom.same a b = true) first.atoms second.atoms := by
  rcases first with ⟨atoms⟩
  rcases second with ⟨others⟩
  simp only [same]
  induction atoms generalizing others with
  | nil => cases others <;> simp [List.isEqv]
  | cons atom atoms ih =>
      cases others with
      | nil => simp [List.isEqv]
      | cons other others => simp [List.isEqv, ih]

theorem same_comm (first second : Pattern) : first.same second = second.same first := by
  have hswap : ∀ {first second : Pattern}, first.same second = true → second.same first = true := by
    intro first second h
    rw [same_iff_forall₂] at h ⊢
    exact h.flip.imp fun a b hab => by rwa [Atom.same_comm]
  exact Bool.eq_iff_iff.2 ⟨hswap, hswap⟩

/-- Patterns without abstract atoms are equal just if they are made of the same atoms. -/
theorem same_iff_eq (hf : first.IsConcrete) (hs : second.IsConcrete) :
    first.same second = true ↔ first = second := by
  rw [same_iff_forall₂]
  constructor
  · rcases first with ⟨atoms⟩
    rcases second with ⟨others⟩
    intro (h : List.Forall₂ _ atoms others)
    congr
    -- atom by atom, since none of them is abstract
    induction h with
    | nil => rfl
    | cons hab _ ih =>
        rw [IsConcrete, List.forall_mem_cons] at hf hs
        rw [(Atom.same_iff_eq hf.1 hs.1).1 hab, ih hf.2 hs.2]
  · rintro rfl
    exact List.forall₂_same.2 fun atom _ => atom.same_refl

end Pattern

namespace Parsed

variable {first second : Parsed}

theorem same_comm (first second : Parsed) : first.same second = second.same first := by
  cases first with
  | invalid => cases second <;> rfl
  | valid p =>
      cases second with
      | invalid => rfl
      | valid q => exact p.same_comm q

theorem same_iff_eq (hf : first.IsConcrete) (hs : second.IsConcrete) :
    first.same second = true ↔ first = second := by
  cases first with
  | invalid => cases second <;> simp [same]
  | valid p =>
      cases second with
      | invalid => simp [same]
      | valid q => simpa [same] using Pattern.same_iff_eq hf hs

end Parsed

/-! ### Values -/

namespace Value

variable {α : Type} {first second : Value α} {answer : Bool}

/-- An atom, a pattern or a language, and neither abstract nor with an abstract atom in it. -/
def IsSettled : Value α → Prop
  | atom a => a.IsConcrete
  | pattern p => p.IsConcrete
  | language _ => True
  | plain _ => False

instance : (value : Value α) → Decidable value.IsSettled
  | atom a => inferInstanceAs (Decidable a.IsConcrete)
  | pattern p => inferInstanceAs (Decidable p.IsConcrete)
  | language _ => inferInstanceAs (Decidable True)
  | plain _ => inferInstanceAs (Decidable False)

variable [DecidableEq α]

theorem same_comm (first second : Value α) : first.same second = second.same first := by
  cases first with
  | atom a =>
      cases second with
      | atom b => exact a.same_comm b
      | _ => rfl
  | pattern p =>
      cases second with
      | pattern q => exact p.same_comm q
      | _ => rfl
  | language l =>
      cases second with
      | language k => simp [same, eq_comm]
      | _ => rfl
  | plain x =>
      cases second with
      | plain y => simp [same, eq_comm]
      | _ => rfl

/-- Without abstract atoms, values are equal just if they are of one class and made of the same
parts. -/
theorem same_iff_eq (hf : first.IsSettled) (hs : second.IsSettled) :
    first.same second = true ↔ first = second := by
  cases first with
  | atom a =>
      cases second with
      | atom b => simpa [same] using Atom.same_iff_eq hf hs
      | _ => simp [same]
  | pattern p =>
      cases second with
      | pattern q => simpa [same] using Parsed.same_iff_eq hf hs
      | _ => simp [same]
  | language l =>
      cases second with
      | language k => simp [same]
      | _ => simp [same]
  | plain x => exact absurd hf id

/-! ### Asking the values -/

/-- An opinion is about equality. -/
theorem eq_same_of_opinion (h : first.opinion second = some answer) :
    answer = first.same second := by
  have hatoms : Atom.asked = Atom.same := by
    funext a b
    exact a.asked_eq_same b
  cases first with
  | atom a =>
      cases second with
      | atom b => exact Atom.eq_same_of_opinion h
      | _ => cases h
  | pattern p =>
      cases second with
      | pattern q =>
          cases p <;> cases q <;> simp_all [opinion, same, Parsed.same, Pattern.same]
      | _ => cases p <;> cases h
  | language l =>
      cases second with
      | language k =>
          obtain rfl : _ = answer := Option.some_inj.1 h
          rcases l with ⟨any, zeroOrMore, differ⟩
          rcases k with ⟨any', zeroOrMore', differ'⟩
          simp [same, Bool.beq_eq_decide_eq]
      | _ => cases h
  | plain x =>
      cases second with
      | plain y => exact (Option.some_inj.1 h).symm
      | _ => cases h

/-- Values of which neither has an opinion are of different classes. -/
theorem same_of_no_opinion (hf : first.opinion second = none) (hs : second.opinion first = none) :
    first.same second = false ∧ first ≠ second := by
  cases first with
  | atom a =>
      cases second with
      | atom b =>
          obtain ⟨hsame, hne⟩ := Atom.same_of_no_opinion hf hs
          exact ⟨hsame, fun h => hne (atom.inj h)⟩
      | _ => simp [same]
  | pattern p =>
      cases second with
      | pattern q => cases p <;> cases q <;> simp_all [opinion, same, Parsed.same]
      | _ => simp [same]
  | language l =>
      cases second with
      | language k => cases hf
      | _ => simp [same]
  | plain x =>
      cases second with
      | plain y => cases hf
      | _ => simp [same]

/-- **Equality by asking** is equality. -/
theorem asked_eq_same (first second : Value α) : first.asked second = first.same second := by
  refine consult_eq _ eq_same_of_opinion (same_comm second first) fun hf hs => ?_
  obtain ⟨hsame, hne⟩ := same_of_no_opinion hf hs
  rw [hsame, decide_eq_false hne]

theorem denial_cases (first second : Value α) :
    first.denial second = some (!first.asked second) ∨
      first.denial second = (first.opinion second).map not := by
  cases first with
  | atom a => exact Or.inl rfl
  | pattern p =>
      cases p with
      | invalid => exact Or.inr rfl
      | valid p => exact Or.inl rfl
  | language l => exact Or.inl rfl
  | plain x => exact Or.inr rfl

/-- A denial is about inequality. -/
theorem eq_differs_of_denial (h : first.denial second = some answer) :
    answer = first.differs second := by
  rcases denial_cases first second with hasked | hopinion
  · rw [h, Option.some_inj, asked_eq_same] at hasked
    exact hasked
  · rw [h, eq_comm, Option.map_eq_some_iff] at hopinion
    obtain ⟨b, hb, rfl⟩ := hopinion
    rw [differs, ← eq_same_of_opinion hb]

theorem no_opinion_of_no_denial (h : first.denial second = none) :
    first.opinion second = none := by
  rcases denial_cases first second with hasked | hopinion
  · cases h.symm.trans hasked
  · exact Option.map_eq_none_iff.1 (hopinion.symm.trans h)

theorem differs_comm (first second : Value α) : first.differs second = second.differs first := by
  rw [differs, differs, same_comm]

/-- **Inequality by asking** is the negation of equality. -/
theorem askedApart_eq_differs (first second : Value α) :
    first.askedApart second = first.differs second := by
  refine consult_eq _ eq_differs_of_denial (differs_comm second first) fun hf hs => ?_
  obtain ⟨hsame, hne⟩ :=
    same_of_no_opinion (no_opinion_of_no_denial hf) (no_opinion_of_no_denial hs)
  rw [differs, hsame, decide_eq_true hne]
  rfl

/-! ### Digests and distinct values -/

/-- One more value for what is kept of a list. -/
def keep (hashing : Hashing α) (kept : List (Value α)) (value : Value α) : List (Value α) :=
  if kept.any (identified hashing value) then kept else value :: kept

theorem distinct_eq_foldl (hashing : Hashing α) (values : List (Value α)) :
    distinct hashing values = values.foldl (keep hashing) [] := rfl

/-- Values that are equal have equal digests. -/
theorem digest_congr (hf : first.IsSettled) (hs : second.IsSettled)
    (h : first.same second = true) (hashing : Hashing α) :
    first.digest hashing = second.digest hashing := by
  rw [(same_iff_eq hf hs).1 h]

/-- Two values are taken for one just if they are made of the same parts. -/
theorem identified_iff_eq (hf : first.IsSettled) (hs : second.IsSettled) (hashing : Hashing α) :
    identified hashing first second = true ↔ first = second := by
  rw [identified, Bool.and_eq_true, beq_iff_eq, same_iff_eq hf hs]
  constructor
  · exact fun h => h.2
  · rintro rfl
    exact ⟨rfl, rfl⟩

/-- What is kept has no value twice, and one more value adds just that value. -/
theorem keep_spec (hashing : Hashing α) {kept : List (Value α)} {value : Value α}
    (hk : ∀ v ∈ kept, v.IsSettled) (hv : value.IsSettled) (hn : kept.Nodup) :
    (keep hashing kept value).Nodup ∧ ∀ v, v ∈ keep hashing kept value ↔ v ∈ kept ∨ v = value := by
  have hany : kept.any (identified hashing value) = true ↔ value ∈ kept := by
    rw [List.any_eq_true]
    constructor
    · rintro ⟨v, hmem, hid⟩
      rwa [(identified_iff_eq hv (hk v hmem) hashing).1 hid]
    · intro hmem
      exact ⟨value, hmem, (identified_iff_eq hv hv hashing).2 rfl⟩
  unfold keep
  split
  next h =>
    rw [hany] at h
    refine ⟨hn, fun v => ⟨Or.inl, ?_⟩⟩
    rintro (hmem | rfl)
    · exact hmem
    · exact h
  next h =>
    rw [hany] at h
    refine ⟨List.nodup_cons.2 ⟨h, hn⟩, fun v => ?_⟩
    rw [List.mem_cons, or_comm]

/-- What is kept of a list has no value twice, and has the values of the list. -/
theorem foldl_keep_spec (hashing : Hashing α) {values kept : List (Value α)}
    (hv : ∀ v ∈ values, v.IsSettled) (hk : ∀ v ∈ kept, v.IsSettled) (hn : kept.Nodup) :
    (values.foldl (keep hashing) kept).Nodup ∧
      ∀ v, v ∈ values.foldl (keep hashing) kept ↔ v ∈ kept ∨ v ∈ values := by
  induction values generalizing kept with
  | nil => simpa using hn
  | cons value values ih =>
      rw [List.forall_mem_cons] at hv
      obtain ⟨hnodup, hmem⟩ := keep_spec hashing hk hv.1 hn
      have hsettled : ∀ v ∈ keep hashing kept value, v.IsSettled := by
        intro v hin
        rcases (hmem v).1 hin with hin | rfl
        · exact hk v hin
        · exact hv.1
      obtain ⟨hnodup', hmem'⟩ := ih hv.2 hsettled hnodup
      refine ⟨hnodup', fun v => ?_⟩
      rw [List.foldl_cons, hmem', hmem, or_assoc, List.mem_cons]

/-- **The size of the set of a list** is the number of the values that occur in the list. -/
theorem countDistinct_eq_card (hashing : Hashing α) {values : List (Value α)}
    (hv : ∀ v ∈ values, v.IsSettled) : countDistinct hashing values = values.toFinset.card := by
  obtain ⟨hnodup, hmem⟩ := foldl_keep_spec hashing hv (List.forall_mem_nil _) List.nodup_nil
  have hset : (distinct hashing values).toFinset = values.toFinset := by
    ext v
    rw [List.mem_toFinset, List.mem_toFinset, distinct_eq_foldl, hmem]
    simp
  rw [countDistinct, ← hset, distinct_eq_foldl, List.toFinset_card_of_nodup hnodup]

/-- **Equality is coherent.**  For any two values, asking them in either order comes to one answer,
asking whether they differ comes to the opposite one, and patterns are equal if they have equally
many atoms, equal place by place, abstract ones included.  On atoms, patterns, the invalid pattern
and languages without abstract atoms, equality is an equivalence and holds just between values of
one class that are made of the same parts; values that are equal have equal digests, whatever
digests are made of.  So the size of the set of a list of them is the number of values that occur in
it, which other lists of the same values share, in whatever order and however often they have
them. -/
theorem equality_is_coherent {α : Type} [DecidableEq α] :
    (∀ first second : Value α,
      first.asked second = first.same second ∧
      first.askedApart second = first.differs second ∧
      first.same second = second.same first ∧
      first.differs second = !first.same second) ∧
    (∀ p q : Pattern,
      same (pattern (.valid p) : Value α) (pattern (.valid q)) = true ↔
        List.Forall₂ (fun a b => same (atom a : Value α) (atom b) = true) p.atoms q.atoms) ∧
    Equivalence (fun first second : { value : Value α // value.IsSettled } =>
      first.val.same second.val = true) ∧
    (∀ first second : Value α, first.IsSettled → second.IsSettled →
      (first.same second = true ↔ first = second)) ∧
    (∀ first second : Value α, first.IsSettled → second.IsSettled → first.same second = true →
      ∀ hashing, first.digest hashing = second.digest hashing) ∧
    ∀ (hashing : Hashing α) (values : List (Value α)), (∀ value ∈ values, value.IsSettled) →
      countDistinct hashing values = values.toFinset.card ∧
      ∀ others : List (Value α), (∀ value, value ∈ others ↔ value ∈ values) →
        countDistinct hashing others = countDistinct hashing values := by
  refine ⟨fun first second => ⟨asked_eq_same first second, askedApart_eq_differs first second,
    same_comm first second, rfl⟩, fun p q => Pattern.same_iff_forall₂, ?_,
    fun first second hf hs => same_iff_eq hf hs,
    fun first second hf hs h hashing => digest_congr hf hs h hashing, ?_⟩
  · constructor
    · exact fun value => (same_iff_eq value.property value.property).2 rfl
    · intro first second h
      rwa [same_comm]
    · intro first second third h h'
      rw [same_iff_eq first.property second.property] at h
      rwa [h]
  · intro hashing values hv
    refine ⟨countDistinct_eq_card hashing hv, fun others hothers => ?_⟩
    have hsettled : ∀ value ∈ others, value.IsSettled := fun value hvalue =>
      hv value ((hothers value).1 hvalue)
    have hset : others.toFinset = values.toFinset := by
      ext value
      rw [List.mem_toFinset, List.mem_toFinset, hothers]
    rw [countDistinct_eq_card hashing hsettled, countDistinct_eq_card hashing hv, hset]

/-- An abstract atom and a literal are equal in either order, also in patterns.  Of five values, two
of which are equal, four are distinct, and no more if the list is reversed and written twice. -/
theorem distinct_values_of_several_classes :
    (atom ⟨.abstract, false⟩ : Value Text).asked (atom (.literal 'a' false)) = true ∧
    (pattern (.valid ⟨[.literal 'a' false]⟩) : Value Text).asked
      (pattern (.valid ⟨[⟨.abstract, false⟩]⟩)) = true ∧
    ∃ values : List (Value Text), values =
        [atom (.literal 'a' false), atom (.wildcard false), pattern (.valid ⟨[.literal 'a' false]⟩),
          language .standard, atom (.literal 'a' false)] ∧
      countDistinct .polynomial values = 4 ∧
      countDistinct .polynomial (values.reverse ++ values) = 4 := by
  obtain ⟨hasked, -, -, -, -, hcount⟩ := @equality_is_coherent Text _
  refine ⟨(hasked _ _).1.trans rfl, (hasked _ _).1.trans rfl, _, rfl, ?_⟩
  obtain ⟨hcard, hsame⟩ := hcount .polynomial
    [atom (.literal 'a' false), atom (.wildcard false), pattern (.valid ⟨[.literal 'a' false]⟩),
      language .standard, atom (.literal 'a' false)] (by decide)
  have hfour := hcard.trans (by decide : _ = 4)
  refine ⟨hfour, (hsame _ fun value => ?_).trans hfour⟩
  rw [List.mem_append, List.mem_reverse, or_self]

end Value

end StarPattern
