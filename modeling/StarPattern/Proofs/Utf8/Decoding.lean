/-
**Bytes stand for the text they encode.**

The reader goes through the bytes once and never back.  What it keeps inside a character is enough
to tell which bytes would still complete it, so it takes a byte exactly if some character goes on
with it.  Hence it reads every encoding back as its text and nothing else, and what it reports is
the end of the longest encoding at the front and the first byte that nothing could follow.

Main definitions:

* `StarPattern.Utf8.Legible` — the bytes are an encoding, or could be continued to one;
* `StarPattern.Utf8.Begins`, `StarPattern.Utf8.BeginsProperly` — the same for one character, and
  that some of it is missing;
* `StarPattern.Utf8.Unfinished.Holds` — what the reader keeps of the bytes of a character;
* `StarPattern.Utf8.Faulty` — the damage at the front of some bytes.

Main results:

* `StarPattern.Utf8.encode_append_cases` — two texts at the front of the same bytes;
* `StarPattern.Utf8.decodeFrom_cons_cases`, `StarPattern.Utf8.decodeFrom_reads` — what the reader
  does with one byte, and with all of them, from any of its states;
* `StarPattern.Utf8.decode_eq_ok_iff` — **what is read is what was written**;
* `StarPattern.bytes_stand_for_the_text_they_encode` — all of it together.
-/
import StarPattern.Proofs.Agreement
import StarPattern.Proofs.Utf8.Characters

set_option relaxedAutoImplicit false
set_option autoImplicit false

namespace StarPattern

namespace Utf8

variable {lead byte : UInt8} {c : Char} {text other : Text} {start length : Nat} {reason : Reason}
variable {range : ByteRange} {ranges met owed : List ByteRange} {u : Unfinished}
variable {bytes taken front rest bad : List UInt8} {outcome : Except Damage Text}

/-! ### Texts at the front of bytes -/

theorem encode_eq_nil_iff : encode text = [] ↔ text = [] := by
  cases text with
  | nil => simp
  | cons c text => simp [String.utf8EncodeChar_ne_nil]

/-- **Two texts at the front of the same bytes**: one of them is the beginning of the other. -/
theorem encode_append_cases (h : encode text ++ rest = encode other ++ bytes) :
    (∃ more, text = other ++ more ∧ bytes = encode more ++ rest) ∨
    (∃ more, other = text ++ more ∧ rest = encode more ++ bytes) := by
  induction text generalizing other with
  | nil => exact Or.inr ⟨other, rfl, h⟩
  | cons c text ih =>
      cases other with
      | nil => exact Or.inl ⟨c :: text, rfl, h.symm⟩
      | cons d other =>
          rw [encode_cons, encode_cons, List.append_assoc, List.append_assoc] at h
          obtain ⟨rfl, hlater⟩ := utf8EncodeChar_append_inj h
          rcases ih hlater with ⟨more, rfl, hbytes⟩ | ⟨more, rfl, hrest⟩
          · exact Or.inl ⟨more, rfl, hbytes⟩
          · exact Or.inr ⟨more, rfl, hrest⟩

theorem encode_inj (h : encode text = encode other) : text = other := by
  have hnil : encode text ++ [] = encode other ++ [] := by rw [h]
  rcases encode_append_cases hnil with ⟨more, rfl, hmore⟩ | ⟨more, rfl, hmore⟩
  · rw [List.append_nil, eq_comm, encode_eq_nil_iff] at hmore
    rw [hmore, List.append_nil]
  · rw [List.append_nil, eq_comm, encode_eq_nil_iff] at hmore
    rw [hmore, List.append_nil]

/-- The bytes are the encoding of a text, or they could be continued to one. -/
def Legible (bytes : List UInt8) : Prop := ∃ text, bytes <+: encode text

/-- Whether bytes could be continued depends only on what comes after the last whole character. -/
theorem legible_encode_append_iff : Legible (encode text ++ bytes) ↔ Legible bytes := by
  constructor
  · rintro ⟨whole, rest, h⟩
    have hwhole : encode whole ++ [] = encode text ++ (bytes ++ rest) := by
      rw [List.append_nil, ← h, List.append_assoc]
    rcases encode_append_cases hwhole with ⟨more, -, hmore⟩ | ⟨more, -, hmore⟩
    · exact ⟨more, rest, by rw [hmore, List.append_nil]⟩
    · obtain ⟨-, hnil⟩ := List.append_eq_nil_iff.1 hmore.symm
      exact ⟨[], rest, hnil⟩
  · rintro ⟨more, rest, h⟩
    exact ⟨text ++ more, rest, by rw [encode_append, ← h, List.append_assoc]⟩

/-! ### The beginning of a character -/

/-- The encoding of some character begins with the bytes. -/
def Begins (bytes : List UInt8) : Prop := ∃ c, bytes <+: String.utf8EncodeChar c

/-- The encoding of some character begins with the bytes and goes on after them. -/
def BeginsProperly (bytes : List UInt8) : Prop :=
  ∃ c rest, rest ≠ [] ∧ bytes ++ rest = String.utf8EncodeChar c

theorem beginsProperly_nil : BeginsProperly [] :=
  ⟨'a', String.utf8EncodeChar 'a', String.utf8EncodeChar_ne_nil, List.nil_append _⟩

theorem BeginsProperly.legible (h : BeginsProperly bytes) : Legible bytes := by
  obtain ⟨c, rest, -, hc⟩ := h
  exact ⟨[c], rest, by simp [hc]⟩

/-- Where a character is not complete there is no other one that is. -/
theorem BeginsProperly.not_prefix (h : BeginsProperly bytes) :
    ¬ String.utf8EncodeChar c <+: bytes := by
  rintro ⟨more, rfl⟩
  obtain ⟨d, rest, hrest, hd⟩ := h
  have hsame : String.utf8EncodeChar c ++ (more ++ rest) = String.utf8EncodeChar d ++ [] := by
    rw [List.append_nil, ← hd, List.append_assoc]
  obtain ⟨-, hnil⟩ := utf8EncodeChar_append_inj hsame
  exact hrest (List.append_eq_nil_iff.1 hnil).2

/-- Where a character is not complete and the next byte does not belong to it, there is no other
character. -/
theorem not_prefix_of_stuck (hfront : BeginsProperly front) (hbyte : ¬ Begins (front ++ [byte])) :
    ¬ String.utf8EncodeChar c <+: front ++ byte :: rest := by
  intro hc
  -- Both stand at the front of the same bytes, so one of them is the beginning of the other.
  have hstuck : front ++ [byte] <+: front ++ byte :: rest :=
    (List.prefix_append_right_inj front).2 ⟨rest, rfl⟩
  rcases List.prefix_or_prefix_of_prefix hstuck hc with hlong | hshort
  · exact hbyte ⟨c, hlong⟩
  · rcases List.prefix_concat_iff.1 hshort with heq | hfit
    · exact hbyte ⟨c, [], by rw [heq, List.append_nil]⟩
    · exact hfront.not_prefix hfit

/-- Such a byte cannot be part of any text. -/
theorem not_legible_of_stuck (hfront : BeginsProperly front) (hbyte : ¬ Begins (front ++ [byte])) :
    ¬ Legible (front ++ byte :: rest) := by
  rintro ⟨text, more, h⟩
  cases text with
  | nil => simp at h
  | cons c text =>
      rw [List.append_assoc, List.cons_append, encode_cons] at h
      exact not_prefix_of_stuck hfront hbyte ⟨encode text, h.symm⟩

/-! ### What the reader keeps of a character -/

/-- The reader inside a character, of which the given bytes came after the lead byte. -/
structure Unfinished.Holds (u : Unfinished) (front : List UInt8) : Prop where
  /-- The bytes meet the demand of the lead byte as far as they go, and the rest of it is owed. -/
  demand : ∃ met, followers u.lead = some (met ++ u.next :: u.owed) ∧ Fits met front
  taken : u.taken = front.length + 1
  value : u.value = gather (leadBits u.lead) front

/-- **Which bytes would complete the character**: those that meet what is owed. -/
theorem Unfinished.Holds.completes_iff (h : u.Holds front) :
    String.utf8EncodeChar c = u.lead :: (front ++ rest) ↔
      Fits (u.next :: u.owed) rest ∧ c = Char.ofNat (gather u.value rest) := by
  obtain ⟨met, hlead, hmet⟩ := h.demand
  rw [utf8EncodeChar_eq_cons_iff, h.value, ← gather_append, ← hmet.append_iff]
  constructor
  · rintro ⟨ranges, hranges, hfits, hc⟩
    obtain rfl : met ++ u.next :: u.owed = ranges := Option.some.inj (hlead.symm.trans hranges)
    exact ⟨hfits, hc⟩
  · rintro ⟨hfits, hc⟩
    exact ⟨_, hlead, hfits, hc⟩

theorem contains_least_of_followers (h : followers lead = some ranges) (hr : range ∈ ranges) :
    range.contains range.least = true := by
  have hsecond : (second lead).contains (second lead).least = true := by
    unfold second
    repeat' split
    all_goals decide
  have hcontinuation : continuation.contains continuation.least = true := by decide
  rcases followers_cases h with ⟨-, rfl⟩ | ⟨-, rfl⟩ | ⟨-, rfl⟩ | ⟨-, rfl⟩
  · cases hr
  · obtain rfl : range = continuation := by simpa using hr
    exact hcontinuation
  · rcases List.mem_cons.1 hr with rfl | hr
    · exact hsecond
    · obtain rfl : range = continuation := by simpa using hr
      exact hcontinuation
  · rcases List.mem_cons.1 hr with rfl | hr
    · exact hsecond
    · obtain rfl : range = continuation := by simpa using hr
      exact hcontinuation

theorem fits_least (h : ∀ range ∈ ranges, range.contains range.least = true) :
    Fits ranges (ranges.map ByteRange.least) := by
  induction ranges with
  | nil => trivial
  | cons range ranges ih =>
      obtain ⟨hrange, hranges⟩ := List.forall_mem_cons.1 h
      exact ⟨hrange, ih hranges⟩

/-- A character of which bytes are owed can be completed, but is not complete. -/
theorem Unfinished.Holds.beginsProperly (h : u.Holds front) :
    BeginsProperly (u.lead :: front) := by
  obtain ⟨met, hlead, -⟩ := h.demand
  -- The least byte of each range that is owed completes the character.
  have hleast : Fits (u.next :: u.owed) ((u.next :: u.owed).map ByteRange.least) :=
    fits_least fun range hr =>
      contains_least_of_followers hlead (List.mem_append_right met hr)
  exact ⟨_, _, List.cons_ne_nil _ _, (h.completes_iff.2 ⟨hleast, rfl⟩).symm⟩

/-- A byte outside the range of the next one belongs to no such character. -/
theorem Unfinished.Holds.not_begins (h : u.Holds front)
    (hbyte : u.next.contains byte = false) : ¬ Begins (u.lead :: (front ++ [byte])) := by
  rintro ⟨c, rest, hc⟩
  have hwhole : String.utf8EncodeChar c = u.lead :: (front ++ byte :: rest) := by simp [← hc]
  obtain ⟨hfits, -⟩ := h.completes_iff.1 hwhole
  rw [hfits.1] at hbyte
  cases hbyte

/-- The last byte that is owed completes the character. -/
theorem Unfinished.Holds.complete (h : u.Holds front) (howed : u.owed = [])
    (hbyte : u.next.contains byte = true) :
    String.utf8EncodeChar (Char.ofNat (u.value * 64 + byte.toNat % 64)) =
      u.lead :: (front ++ [byte]) := by
  rw [h.completes_iff, howed]
  exact ⟨⟨hbyte, trivial⟩, rfl⟩

/-- A byte that is owed, but not the last one, is kept. -/
theorem Unfinished.Holds.advance {next : ByteRange} (h : u.Holds front)
    (howed : u.owed = next :: owed) (hbyte : u.next.contains byte = true) :
    Unfinished.Holds ⟨u.lead, u.taken + 1, u.value * 64 + byte.toNat % 64, next, owed⟩
      (front ++ [byte]) := by
  obtain ⟨met, hlead, hmet⟩ := h.demand
  refine ⟨⟨met ++ [u.next], ?_, ?_⟩, ?_, ?_⟩
  · rw [hlead, howed, List.append_assoc, List.singleton_append]
  · exact hmet.append_iff.2 ⟨hbyte, trivial⟩
  · rw [h.taken, List.length_append, List.length_singleton]
  · rw [h.value, gather_append, gather_cons, gather_nil]

theorem holds_of_lead {next : ByteRange} (h : followers lead = some (next :: owed)) :
    Unfinished.Holds ⟨lead, 1, leadBits lead, next, owed⟩ [] :=
  ⟨⟨[], h, trivial⟩, rfl, rfl⟩

theorem utf8EncodeChar_of_lead (h : followers lead = some []) :
    String.utf8EncodeChar (Char.ofNat (leadBits lead)) = [lead] :=
  utf8EncodeChar_of_fits h (fits_nil_iff.2 rfl)

theorem not_begins_of_lead (h : followers lead = none) : ¬ Begins [lead] := by
  rintro ⟨c, rest, hc⟩
  obtain ⟨ranges, hranges, -, -⟩ := utf8EncodeChar_eq_cons_iff.1 hc.symm
  rw [h] at hranges
  cases hranges

/-! ### Damage -/

/-- The damage at the front of some bytes: the lead byte, how many bytes of a character there are,
and why there are no more.  Either no character starts there, or the next byte belongs to none that
starts like this, or there is no next byte. -/
inductive Faulty : List UInt8 → UInt8 → Nat → Reason → Prop
  | start {byte : UInt8} {rest : List UInt8} (hbyte : ¬ Begins [byte]) :
      Faulty (byte :: rest) byte 1 .invalidStart
  | continuation {lead byte : UInt8} {front rest : List UInt8}
      (hfront : BeginsProperly (lead :: front)) (hbyte : ¬ Begins (lead :: (front ++ [byte]))) :
      Faulty (lead :: (front ++ byte :: rest)) lead (front.length + 1) .invalidContinuation
  | ended {lead : UInt8} {front : List UInt8} (hfront : BeginsProperly (lead :: front)) :
      Faulty (lead :: front) lead (front.length + 1) .unexpectedEnd

theorem Faulty.head? (h : Faulty bad lead length reason) : bad.head? = some lead := by
  cases h <;> rfl

theorem Faulty.not_prefix (h : Faulty bad lead length reason) :
    ¬ String.utf8EncodeChar c <+: bad := by
  cases h with
  | start hbyte => exact not_prefix_of_stuck beginsProperly_nil hbyte
  | continuation hfront hbyte => exact not_prefix_of_stuck hfront hbyte
  | ended hfront => exact hfront.not_prefix

/-- No text stands at the front of damage. -/
theorem Faulty.eq_nil_of_prefix (h : Faulty bad lead length reason)
    (htext : encode text <+: bad) : text = [] := by
  cases text with
  | nil => rfl
  | cons c text =>
      have hc : String.utf8EncodeChar c <+: encode (c :: text) := List.prefix_append _ _
      exact absurd (hc.trans htext) h.not_prefix

/-- Only the end of the bytes leaves them legible. -/
theorem Faulty.legible_iff (h : Faulty bad lead length reason) :
    Legible bad ↔ reason = .unexpectedEnd := by
  cases h with
  | start hbyte => simpa using not_legible_of_stuck beginsProperly_nil hbyte
  | continuation hfront hbyte => simpa using not_legible_of_stuck hfront hbyte
  | ended hfront => simpa using hfront.legible

theorem Faulty.length_eq (h : Faulty bad lead length reason) (hreason : reason = .unexpectedEnd) :
    length = bad.length := by
  cases h with
  | start _ => cases hreason
  | continuation _ _ => cases hreason
  | ended _ => rfl

/-- If the bytes are not legible, then one of them is the first after which they are not: the byte
that starts no character, or the one right behind those that are counted. -/
theorem Faulty.first_illegible (h : Faulty bad lead length reason) (hbad : ¬ Legible bad) :
    (reason = .invalidStart ∧ length = 1 ∧ ¬ Legible (bad.take 1)) ∨
    (reason = .invalidContinuation ∧ 0 < length ∧ length < bad.length ∧
      Legible (bad.take length) ∧ ¬ Legible (bad.take (length + 1))) := by
  cases h with
  | start hbyte => exact Or.inl ⟨rfl, rfl, not_legible_of_stuck beginsProperly_nil hbyte⟩
  | @continuation lead byte front rest hfront hbyte =>
      have htake : (lead :: (front ++ byte :: rest)).take (front.length + 1) = lead :: front := by
        rw [List.take_succ_cons, List.take_left]
      have hnext : (lead :: (front ++ byte :: rest)).take (front.length + 1 + 1) =
          lead :: (front ++ [byte]) := by
        rw [List.take_succ_cons, List.take_length_add_append, List.take_succ_cons, List.take_zero]
      refine Or.inr ⟨rfl, Nat.succ_pos _, by simp, ?_, ?_⟩
      · rw [htake]
        exact hfront.legible
      · rw [hnext]
        exact not_legible_of_stuck hfront hbyte
  | ended hfront => exact absurd hfront.legible hbad

/-- The longest text at the front of some bytes is the one before the damage. -/
theorem Faulty.length_le_of_prefix (h : Faulty bad lead length reason)
    (htext : encode other <+: encode text ++ bad) :
    (encode other).length ≤ (encode text).length := by
  obtain ⟨rest, hrest⟩ := htext
  rcases encode_append_cases hrest with ⟨more, rfl, hbad⟩ | ⟨more, rfl, -⟩
  · obtain rfl := h.eq_nil_of_prefix ⟨rest, hbad.symm⟩
    simp
  · rw [encode_append, List.length_append]
    omega

theorem Faulty.ne_encode (h : Faulty bad lead length reason) :
    encode text ++ bad ≠ encode other := by
  intro heq
  have hbad : bad ≠ [] := by
    rintro rfl
    cases h
  have hle : (encode other).length ≤ (encode text).length :=
    h.length_le_of_prefix ⟨[], by rw [heq, List.append_nil]⟩
  rw [← heq, List.length_append] at hle
  exact hbad (List.length_eq_zero_iff.1 (by omega))

/-! ### The reader -/

/-- The outcome is right for the bytes that start at an offset: they encode the text, or there is
damage right behind some text that they begin with. -/
def Reads (start : Nat) (bytes : List UInt8) : Except Damage Text → Prop
  | .ok text => bytes = encode text
  | .error damage => ∃ text bad, bytes = encode text ++ bad ∧
      damage.start = start + (encode text).length ∧
      Faulty bad damage.lead damage.length damage.reason

theorem Reads.cons (h : Reads (start + (String.utf8EncodeChar c).length) rest outcome) :
    Reads start (String.utf8EncodeChar c ++ rest) ((c :: ·) <$> outcome) := by
  cases outcome with
  | ok text =>
      obtain rfl : rest = encode text := h
      rfl
  | error damage =>
      obtain ⟨text, bad, rfl, hstart, hbad⟩ := h
      refine ⟨c :: text, bad, by rw [encode_cons, List.append_assoc], ?_, hbad⟩
      rw [hstart, encode_cons, List.length_append, Nat.add_assoc]

theorem reads_of_faulty (h : Faulty bytes lead length reason) :
    Reads start bytes (.error ⟨lead, start, length, reason⟩) :=
  ⟨[], bytes, rfl, rfl, h⟩

/-- The reader has taken these bytes since the last character was complete. -/
def Stands : Option Unfinished → List UInt8 → Prop
  | none, taken => taken = []
  | some u, taken => ∃ front, taken = u.lead :: front ∧ u.Holds front

theorem stands_none : Stands none [] := rfl

theorem Unfinished.Holds.stands (h : u.Holds front) : Stands (some u) (u.lead :: front) :=
  ⟨front, rfl, h⟩

/-- **One step.**  The next byte is the first that no character goes on with, or it completes a
character, or it is taken and more bytes are owed. -/
theorem decodeFrom_cons_cases {state : Option Unfinished} (h : Stands state taken) (start : Nat)
    (byte : UInt8) (rest : List UInt8) :
    (∃ lead length reason,
      decodeFrom start state (byte :: rest) = .error ⟨lead, start, length, reason⟩ ∧
        Faulty (taken ++ byte :: rest) lead length reason) ∨
    (∃ c, taken ++ [byte] = String.utf8EncodeChar c ∧
      decodeFrom start state (byte :: rest) =
        (c :: ·) <$> decodeFrom (start + (String.utf8EncodeChar c).length) none rest) ∨
    (∃ u, Stands (some u) (taken ++ [byte]) ∧
      decodeFrom start state (byte :: rest) = decodeFrom start (some u) rest) := by
  cases state with
  | none =>
      obtain rfl : taken = [] := h
      cases hlead : followers byte with
      | none =>
          refine Or.inl ⟨byte, 1, .invalidStart, ?_, .start (not_begins_of_lead hlead)⟩
          simp only [decodeFrom, hlead]
      | some ranges =>
          cases ranges with
          | nil =>
              have hc := utf8EncodeChar_of_lead hlead
              refine Or.inr (Or.inl ⟨_, hc.symm, ?_⟩)
              simp only [decodeFrom, hlead, hc, List.length_singleton]
          | cons next owed =>
              refine Or.inr (Or.inr ⟨_, (holds_of_lead hlead).stands, ?_⟩)
              simp only [decodeFrom, hlead]
  | some u =>
      obtain ⟨front, rfl, hu⟩ := h
      cases hbyte : u.next.contains byte with
      | false =>
          have hbad : Faulty (u.lead :: (front ++ byte :: rest)) u.lead (front.length + 1)
              .invalidContinuation := .continuation hu.beginsProperly (hu.not_begins hbyte)
          refine Or.inl ⟨_, _, _, ?_, hbad⟩
          simp only [decodeFrom, hbyte, Bool.false_eq_true, if_false, hu.taken]
      | true =>
          cases howed : u.owed with
          | nil =>
              have hc := hu.complete howed hbyte
              refine Or.inr (Or.inl ⟨_, hc.symm, ?_⟩)
              simp only [decodeFrom, hbyte, if_true, howed, hc, List.length_cons,
                List.length_append, List.length_nil, hu.taken, Nat.add_assoc]
          | cons next owed =>
              refine Or.inr (Or.inr ⟨_, (hu.advance howed hbyte).stands, ?_⟩)
              simp only [decodeFrom, hbyte, if_true, howed]

/-- **The whole run.**  From any state, the outcome is right for the bytes that were taken and those
that are still to come. -/
theorem decodeFrom_reads {state : Option Unfinished} (h : Stands state taken) :
    Reads start (taken ++ bytes) (decodeFrom start state bytes) := by
  induction bytes generalizing start state taken with
  | nil =>
      cases state with
      | none =>
          obtain rfl : taken = [] := h
          rfl
      | some u =>
          obtain ⟨front, rfl, hu⟩ := h
          rw [List.append_nil, decodeFrom, hu.taken]
          exact reads_of_faulty (.ended hu.beginsProperly)
  | cons byte rest ih =>
      rcases decodeFrom_cons_cases h start byte rest with
        ⟨lead, length, reason, hstep, hbad⟩ | ⟨c, hc, hstep⟩ | ⟨u, hu, hstep⟩
      · rw [hstep]
        exact reads_of_faulty hbad
      · -- Nothing is taken of the next character, so the run goes on as from the beginning.
        rw [hstep, List.append_cons, hc]
        exact Reads.cons (ih stands_none)
      · rw [hstep, List.append_cons]
        exact ih hu

theorem decode_reads (bytes : List UInt8) : Reads 0 bytes (decode bytes) :=
  decodeFrom_reads stands_none

/-- **What is read is what was written.** -/
theorem decode_eq_ok_iff : decode bytes = .ok text ↔ bytes = encode text := by
  have hreads := decode_reads bytes
  cases hd : decode bytes with
  | ok found =>
      rw [hd] at hreads
      obtain rfl : bytes = encode found := hreads
      constructor
      · intro h
        rw [Except.ok.inj h]
      · intro h
        rw [encode_inj h]
  | error damage =>
      rw [hd] at hreads
      obtain ⟨front, bad, rfl, -, hbad⟩ := hreads
      simp [hbad.ne_encode]

/-- Bytes that are no encoding are damaged behind some text. -/
theorem exists_damage (h : ¬ ∃ text, bytes = encode text) :
    ∃ damage text bad, decode bytes = .error damage ∧ bytes = encode text ++ bad ∧
      damage.start = (encode text).length ∧
      Faulty bad damage.lead damage.length damage.reason := by
  have hreads := decode_reads bytes
  cases hd : decode bytes with
  | ok text => exact absurd ⟨text, decode_eq_ok_iff.1 hd⟩ h
  | error damage =>
      rw [hd] at hreads
      obtain ⟨text, bad, hbytes, hstart, hbad⟩ := hreads
      exact ⟨damage, text, bad, rfl, hbytes, by rw [hstart, Nat.zero_add], hbad⟩

theorem message_eq_iff (reason other : Reason) :
    reason.message = other.message ↔ reason = other := by
  cases reason <;> cases other <;> decide

end Utf8

/-! ### Sources -/

section Sources

variable {given source : Source} {signs text : Text} {bytes : List UInt8}

theorem Source.toText_bytes_eq_ok_iff :
    (Source.bytes bytes).toText = .ok text ↔ bytes = Utf8.encode text := by
  rw [Source.toText, mapError_eq_ok_iff, Utf8.decode_eq_ok_iff]

theorem Source.toText_of_encoding (h : source = .text text ∨ source = .bytes (Utf8.encode text)) :
    source.toText = .ok text := by
  rcases h with rfl | rfl
  · rfl
  · exact toText_bytes_eq_ok_iff.2 rfl

theorem Table.accepts_congr {parsed : Parsed} {other : Source} (h : source.toText = other.toText) :
    Table.accepts parsed source = Table.accepts parsed other := by
  cases parsed with
  | invalid => rfl
  | valid pattern => rw [accepts, accepts, examine, examine, h]

/-- The decision depends only on the texts that the sources hold. -/
theorem decideMatch_of_toText_of_toText (hg : given.toText = .ok signs)
    (hs : source.toText = .ok text) :
    decideMatch given source = decideMatch (.text signs) (.text text) := by
  rw [decideMatch_of_toText hg, decideMatch_of_toText (Source.toText_text signs)]
  exact Table.accepts_congr (hs.trans (Source.toText_text text).symm)

/-- **Bytes stand for the text they encode.**  They are read as a text exactly if they are its
encoding, so reading undoes encoding, no two sequences of bytes are read as the same text, and in a
decision bytes can stand in for the text on either side.  Bytes that encode no text are reported
with the end of the longest encoding at their front.  The reason is that they end too early exactly
if they could be continued to an encoding, and then the report reaches to their end.  Otherwise it
is the byte there that starts no character, or it reaches to the first byte after which no encoding
is possible any more. -/
theorem bytes_stand_for_the_text_they_encode :
    (∀ bytes text, (Source.bytes bytes).toText = .ok text ↔ bytes = Utf8.encode text) ∧
    (∀ text, (Source.bytes (Utf8.encode text)).toText = .ok text) ∧
    (∀ first second text, (Source.bytes first).toText = .ok text →
      (Source.bytes second).toText = .ok text → first = second) ∧
    (∀ given source signs text,
      given = .text signs ∨ given = .bytes (Utf8.encode signs) →
      source = .text text ∨ source = .bytes (Utf8.encode text) →
      decideMatch given source = decideMatch (.text signs) (.text text)) ∧
    (∀ bytes, (¬ ∃ text, bytes = Utf8.encode text) →
      ∃ damage, (Source.bytes bytes).toText = .error (.undecodable damage) ∧
        (∃ text, Utf8.encode text <+: bytes ∧ (Utf8.encode text).length = damage.start) ∧
        (∀ text, Utf8.encode text <+: bytes → (Utf8.encode text).length ≤ damage.start) ∧
        bytes[damage.start]? = some damage.lead ∧
        (damage.reason.message = "unexpected end of data".toList ↔
          ∃ text, bytes <+: Utf8.encode text) ∧
        ((∃ text, bytes <+: Utf8.encode text) →
          damage.start + damage.length = bytes.length) ∧
        ((¬ ∃ text, bytes <+: Utf8.encode text) →
          (damage.reason.message = "invalid start byte".toList ∧ damage.length = 1 ∧
            ¬ ∃ text, bytes.take (damage.start + 1) <+: Utf8.encode text) ∨
          (damage.reason.message = "invalid continuation byte".toList ∧ 0 < damage.length ∧
            damage.start + damage.length < bytes.length ∧
            (∃ text, bytes.take (damage.start + damage.length) <+: Utf8.encode text) ∧
            ¬ ∃ text, bytes.take (damage.start + damage.length + 1) <+: Utf8.encode text))) := by
  refine ⟨?_, ?_, ?_, ?_, ?_⟩
  · intro bytes text
    exact Source.toText_bytes_eq_ok_iff
  · intro text
    exact Source.toText_bytes_eq_ok_iff.2 rfl
  · intro first second text hfirst hsecond
    rw [Source.toText_bytes_eq_ok_iff.1 hfirst, Source.toText_bytes_eq_ok_iff.1 hsecond]
  · intro given source signs text hg hs
    exact decideMatch_of_toText_of_toText (Source.toText_of_encoding hg)
      (Source.toText_of_encoding hs)
  · intro bytes h
    obtain ⟨damage, text, bad, hdecode, rfl, hstart, hbad⟩ := Utf8.exists_damage h
    have hlegible : Utf8.Legible (Utf8.encode text ++ bad) ↔ Utf8.Legible bad :=
      Utf8.legible_encode_append_iff
    have htake : ∀ n, Utf8.Legible ((Utf8.encode text ++ bad).take (damage.start + n)) ↔
        Utf8.Legible (bad.take n) := by
      intro n
      rw [hstart, List.take_length_add_append, Utf8.legible_encode_append_iff]
    refine ⟨damage, ?_, ⟨text, List.prefix_append _ _, hstart.symm⟩, ?_, ?_, ?_, ?_, ?_⟩
    · rw [Source.toText, hdecode]
      rfl
    · intro other hother
      rw [hstart]
      exact hbad.length_le_of_prefix hother
    · rw [hstart, List.getElem?_append_right (Nat.le_refl _), Nat.sub_self,
        ← List.head?_eq_getElem?, hbad.head?]
    · exact (Utf8.message_eq_iff _ .unexpectedEnd).trans (hbad.legible_iff.symm.trans hlegible.symm)
    · intro hwhole
      have hlength := hbad.length_eq (hbad.legible_iff.1 (hlegible.1 hwhole))
      rw [hstart, hlength, List.length_append]
    · intro hwhole
      have hillegible : ¬ Utf8.Legible bad := fun h => hwhole (hlegible.2 h)
      rcases hbad.first_illegible hillegible with ⟨hr, hone, hnot⟩ | ⟨hr, hpos, hlt, hyes, hnot⟩
      · exact Or.inl ⟨by rw [hr]; rfl, hone, fun h => hnot ((htake 1).1 h)⟩
      · refine Or.inr ⟨by rw [hr]; rfl, hpos, ?_, (htake _).2 hyes, ?_⟩
        · rw [hstart, List.length_append]
          omega
        · rw [Nat.add_assoc]
          exact fun h => hnot ((htake _).1 h)

/-- A pattern is given by its bytes.  Of four bytes the first three could be continued, the fourth
one belongs to no character. -/
theorem decision_and_damage_of_bytes :
    decideMatch (.bytes [0xC3, 0xA9, 0x2A]) (.text ['é', 'é']) =
        decideMatch (.text ['é', '*']) (.text ['é', 'é']) ∧
      (∃ text, [0x61, 0xE2, 0x82] <+: Utf8.encode text) ∧
      ¬ ∃ text, [0x61, 0xE2, 0x82, 0x28] <+: Utf8.encode text := by
  obtain ⟨hread, -, -, hdecide, hdamage⟩ := bytes_stand_for_the_text_they_encode
  have hfault : (Source.bytes [0x61, 0xE2, 0x82, 0x28]).toText =
      .error (.undecodable ⟨0xE2, 1, 2, .invalidContinuation⟩) := rfl
  have hnone : ¬ ∃ text, [0x61, 0xE2, 0x82, 0x28] = Utf8.encode text := by
    rintro ⟨text, h⟩
    rw [← hread, hfault] at h
    cases h
  obtain ⟨damage, hd, -, -, -, hend, -, hother⟩ := hdamage _ hnone
  obtain rfl : ⟨0xE2, 1, 2, .invalidContinuation⟩ = damage :=
    Fault.undecodable.inj (Except.error.inj (hfault.symm.trans hd))
  have hillegible : ¬ ∃ text, [0x61, 0xE2, 0x82, 0x28] <+: Utf8.encode text :=
    fun h => absurd (hend.2 h) (by decide)
  refine ⟨hdecide _ _ _ _ (Or.inr rfl) (Or.inl rfl), ?_, hillegible⟩
  rcases hother hillegible with ⟨hmessage, -⟩ | ⟨-, -, -, hlegible, -⟩
  · exact absurd hmessage (by decide)
  · exact hlegible

end Sources

end StarPattern
