/-
**Sets of states.**

A state of the automaton is an integer, and a set of states is kept as its members in ascending
order, each once.  So two sets with the same members are equal, and the list of the members is the
written form of the set.

Main definitions:

* `StarPattern.StateSet` — a finite set of integers;
* `StarPattern.StateSet.insert`, `StarPattern.StateSet.insertAll`, `StarPattern.StateSet.ofList` —
  sets from their members.

Main results:

* `StarPattern.StateSet.mem_insert`, `StarPattern.StateSet.mem_insertAll`,
  `StarPattern.StateSet.mem_ofList` — the members of these sets;
* `StarPattern.StateSet.ext` — sets with the same members are equal.
-/

set_option relaxedAutoImplicit false
set_option autoImplicit false

namespace StarPattern

/-- A finite set of integers. -/
structure StateSet where
  toList : List Int
  ascending : toList.Pairwise (· < ·)
  deriving DecidableEq, Repr

namespace StateSet

instance : Membership Int StateSet := ⟨fun set state => state ∈ set.toList⟩

instance (state : Int) (set : StateSet) : Decidable (state ∈ set) :=
  inferInstanceAs (Decidable (state ∈ set.toList))

instance : EmptyCollection StateSet := ⟨⟨[], .nil⟩⟩

theorem mem_def {state : Int} {set : StateSet} : state ∈ set ↔ state ∈ set.toList := Iff.rfl

@[simp] theorem not_mem_empty (state : Int) : state ∉ (∅ : StateSet) := by
  simp [mem_def, EmptyCollection.emptyCollection]

/-- The set has no members. -/
def isEmpty (set : StateSet) : Bool := set.toList.isEmpty

theorem eq_empty_of_isEmpty {set : StateSet} (h : set.isEmpty = true) : set = ∅ := by
  obtain ⟨members, ascending⟩ := set
  obtain rfl : members = [] := List.isEmpty_iff.1 h
  rfl

theorem isEmpty_eq_false_iff {set : StateSet} : set.isEmpty = false ↔ set ≠ ∅ := by
  rw [← Bool.not_eq_true]
  exact not_congr ⟨eq_empty_of_isEmpty, fun h => by rw [h]; rfl⟩

/-! ### Insertion -/

/-- Puts a number into its place in an ascending list, unless it is there. -/
def place (state : Int) : List Int → List Int
  | [] => [state]
  | next :: rest =>
    if state < next then state :: next :: rest
    else if state = next then next :: rest
    else next :: place state rest

theorem mem_place {x state : Int} {states : List Int} :
    x ∈ place state states ↔ x = state ∨ x ∈ states := by
  induction states with
  | nil => simp [place]
  | cons next rest ih =>
      unfold place
      split
      · simp
      · split
        · simp_all
        · rw [List.mem_cons, ih, List.mem_cons]
          exact or_left_comm

theorem place_ascending (state : Int) {states : List Int} (ascending : states.Pairwise (· < ·)) :
    (place state states).Pairwise (· < ·) := by
  induction states with
  | nil => simp [place]
  | cons next rest ih =>
      rw [List.pairwise_cons] at ascending
      unfold place
      split
      · simp only [List.pairwise_cons, List.mem_cons]
        grind
      · split
        · exact List.pairwise_cons.2 ascending
        · refine List.pairwise_cons.2 ⟨?_, ih ascending.2⟩
          intro x member
          rcases mem_place.1 member with rfl | member
          · omega
          · exact ascending.1 x member

/-- The set with one more member. -/
def insert (state : Int) (set : StateSet) : StateSet :=
  ⟨place state set.toList, place_ascending state set.ascending⟩

@[simp] theorem mem_insert {x state : Int} {set : StateSet} :
    x ∈ set.insert state ↔ x = state ∨ x ∈ set := mem_place

/-- The set with the members of a list added, the last first. -/
def insertAll (states : List Int) (set : StateSet) : StateSet := states.foldr insert set

@[simp] theorem mem_insertAll {x : Int} {states : List Int} {set : StateSet} :
    x ∈ set.insertAll states ↔ x ∈ states ∨ x ∈ set := by
  induction states with
  | nil => simp [insertAll]
  | cons state states ih =>
      have step : x ∈ set.insertAll (state :: states) ↔ x = state ∨ x ∈ set.insertAll states :=
        mem_insert
      rw [step, ih, List.mem_cons, or_assoc]

/-- The set of the members of a list. -/
def ofList (states : List Int) : StateSet := insertAll states ∅

@[simp] theorem mem_ofList {x : Int} {states : List Int} : x ∈ ofList states ↔ x ∈ states := by
  simp [ofList]

/-! ### Equality -/

theorem nodup (set : StateSet) : set.toList.Nodup :=
  set.ascending.imp fun less => Int.ne_of_lt less

/-- Sets with the same members are equal. -/
theorem ext {first second : StateSet} (same : ∀ state, state ∈ first ↔ state ∈ second) :
    first = second := by
  have perm : first.toList.Perm second.toList :=
    (List.perm_ext_iff_of_nodup first.nodup second.nodup).2 same
  have equal : first.toList = second.toList :=
    perm.eq_of_pairwise (fun a b _ _ less more => absurd more (by omega)) first.ascending
      second.ascending
  cases first
  cases second
  simp_all

end StateSet

end StarPattern
