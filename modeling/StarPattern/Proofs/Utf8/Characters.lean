/-
**The bytes of one character.**

A lead byte demands a number of further bytes, each from a range of its own.  This table is exactly
the encoding: bytes that meet the demand of their lead byte are the encoding of the character whose
number they carry, and there are no other encodings.  Since the demand is known from the lead byte,
no encoding of a character goes on where another one ends.

Main definitions:

* `StarPattern.Utf8.Fits` — the bytes are as many as the ranges, and each lies in its range;
* `StarPattern.Utf8.gather` — the number that bytes carry;
* `StarPattern.Utf8.second` — the range of the byte right after a lead byte.

Main results:

* `StarPattern.Utf8.utf8EncodeChar_eq_cons_iff` — **what is the encoding of a character**;
* `StarPattern.Utf8.utf8EncodeChar_append_inj` — **no encoding is the beginning of another one**.
-/
import StarPattern.Text.Utf8

set_option relaxedAutoImplicit false
set_option autoImplicit false

namespace StarPattern

namespace Utf8

variable {lead x y z byte : UInt8} {c d : Char} {range : ByteRange}
variable {ranges met owed : List ByteRange} {bytes front rest other : List UInt8}

/-! ### Bytes that meet a demand -/

/-- The bytes are as many as the ranges, and each lies in its range. -/
def Fits : List ByteRange → List UInt8 → Prop
  | [], [] => True
  | range :: ranges, byte :: bytes => range.contains byte = true ∧ Fits ranges bytes
  | _, _ => False

theorem fits_nil_iff : Fits [] bytes ↔ bytes = [] := by
  cases bytes <;> simp [Fits]

theorem fits_cons_iff :
    Fits (range :: ranges) bytes ↔
      ∃ byte rest, bytes = byte :: rest ∧ range.contains byte = true ∧ Fits ranges rest := by
  cases bytes with
  | nil => simp [Fits]
  | cons byte rest =>
      constructor
      · rintro ⟨hbyte, hrest⟩
        exact ⟨byte, rest, rfl, hbyte, hrest⟩
      · rintro ⟨_, _, heq, hbyte, hrest⟩
        obtain ⟨rfl, rfl⟩ := List.cons.inj heq
        exact ⟨hbyte, hrest⟩

theorem Fits.length_eq (h : Fits ranges bytes) : bytes.length = ranges.length := by
  induction ranges generalizing bytes with
  | nil => rw [fits_nil_iff.1 h]; rfl
  | cons range ranges ih =>
      obtain ⟨byte, rest, rfl, -, hrest⟩ := fits_cons_iff.1 h
      rw [List.length_cons, List.length_cons, ih hrest]

/-- What comes after bytes that meet the first part of a demand has to meet the rest of it. -/
theorem Fits.append_iff (h : Fits met front) :
    Fits (met ++ owed) (front ++ rest) ↔ Fits owed rest := by
  induction met generalizing front with
  | nil => rw [fits_nil_iff.1 h]; rfl
  | cons range met ih =>
      obtain ⟨byte, later, rfl, hbyte, hlater⟩ := fits_cons_iff.1 h
      rw [List.cons_append, List.cons_append, ← ih hlater]
      exact ⟨fun hfits => hfits.2, fun hfits => ⟨hbyte, hfits⟩⟩

/-- The number that is carried on by the given bytes, six bits in each. -/
def gather (value : Nat) (bytes : List UInt8) : Nat :=
  bytes.foldl (fun value byte => value * 64 + byte.toNat % 64) value

@[simp] theorem gather_nil (value : Nat) : gather value [] = value := rfl

@[simp] theorem gather_cons (value : Nat) (byte : UInt8) (bytes : List UInt8) :
    gather value (byte :: bytes) = gather (value * 64 + byte.toNat % 64) bytes := rfl

theorem gather_append (value : Nat) (front rest : List UInt8) :
    gather value (front ++ rest) = gather (gather value front) rest :=
  List.foldl_append

/-! ### The table of lead bytes by their numbers -/

theorem contains_iff :
    range.contains byte = true ↔
      range.least.toNat ≤ byte.toNat ∧ byte.toNat ≤ range.greatest.toNat := by
  simp [ByteRange.contains, UInt8.le_iff_toNat_le]

theorem continuation_contains_iff :
    continuation.contains byte = true ↔ 0x80 ≤ byte.toNat ∧ byte.toNat ≤ 0xBF := by
  simp [contains_iff, continuation]

/-- The range of the byte right after a lead byte of a longer sequence. -/
def second (lead : UInt8) : ByteRange :=
  if lead = 0xE0 then ⟨0xA0, 0xBF⟩
  else if lead = 0xED then ⟨0x80, 0x9F⟩
  else if lead = 0xF0 then ⟨0x90, 0xBF⟩
  else if lead = 0xF4 then ⟨0x80, 0x8F⟩
  else continuation

theorem second_contains_iff :
    (second lead).contains byte = true ↔
      (0x80 ≤ byte.toNat ∧ byte.toNat ≤ 0xBF) ∧
        (lead.toNat = 0xE0 → 0xA0 ≤ byte.toNat) ∧ (lead.toNat = 0xED → byte.toNat ≤ 0x9F) ∧
        (lead.toNat = 0xF0 → 0x90 ≤ byte.toNat) ∧ (lead.toNat = 0xF4 → byte.toNat ≤ 0x8F) := by
  simp only [second, ← UInt8.toNat_inj]
  repeat' split
  all_goals simp [contains_iff, continuation] at *
  all_goals omega

theorem followers_eq (lead : UInt8) :
    followers lead =
      if lead.toNat ≤ 0x7F then some []
      else if lead.toNat ≤ 0xC1 then none
      else if lead.toNat ≤ 0xDF then some [continuation]
      else if lead.toNat ≤ 0xEF then some [second lead, continuation]
      else if lead.toNat ≤ 0xF4 then some [second lead, continuation, continuation]
      else none := by
  simp only [followers, second, UInt8.le_iff_toNat_le, ← UInt8.toNat_inj, UInt8.reduceToNat]
  grind

theorem leadBits_eq (lead : UInt8) :
    leadBits lead =
      if lead.toNat ≤ 0x7F then lead.toNat
      else if lead.toNat ≤ 0xDF then lead.toNat % 32
      else if lead.toNat ≤ 0xEF then lead.toNat % 16
      else lead.toNat % 8 := by
  simp only [leadBits, UInt8.le_iff_toNat_le, UInt8.reduceToNat]

theorem lead_of_one (h : lead.toNat ≤ 0x7F) :
    followers lead = some [] ∧ leadBits lead = lead.toNat := by
  rw [followers_eq, leadBits_eq, if_pos h, if_pos h]
  exact ⟨rfl, rfl⟩

theorem lead_of_two (hl : 0xC2 ≤ lead.toNat) (hu : lead.toNat ≤ 0xDF) :
    followers lead = some [continuation] ∧ leadBits lead = lead.toNat % 32 := by
  rw [followers_eq, leadBits_eq]
  grind

theorem lead_of_three (hl : 0xE0 ≤ lead.toNat) (hu : lead.toNat ≤ 0xEF) :
    followers lead = some [second lead, continuation] ∧ leadBits lead = lead.toNat % 16 := by
  rw [followers_eq, leadBits_eq]
  grind

theorem lead_of_four (hl : 0xF0 ≤ lead.toNat) (hu : lead.toNat ≤ 0xF4) :
    followers lead = some [second lead, continuation, continuation] ∧
      leadBits lead = lead.toNat % 8 := by
  rw [followers_eq, leadBits_eq]
  grind

/-- A byte that starts a character is in one of four intervals, which fixes what it demands. -/
theorem followers_cases (h : followers lead = some ranges) :
    (lead.toNat ≤ 0x7F ∧ ranges = []) ∨
    ((0xC2 ≤ lead.toNat ∧ lead.toNat ≤ 0xDF) ∧ ranges = [continuation]) ∨
    ((0xE0 ≤ lead.toNat ∧ lead.toNat ≤ 0xEF) ∧ ranges = [second lead, continuation]) ∨
    ((0xF0 ≤ lead.toNat ∧ lead.toNat ≤ 0xF4) ∧
      ranges = [second lead, continuation, continuation]) := by
  rw [followers_eq] at h
  repeat' split at h
  all_goals cases h
  all_goals grind

/-! ### The encoding by the number of the character -/

theorem toNat_ofNat {n : Nat} (h : n.isValidChar) : (Char.ofNat n).toNat = n := by
  rw [Char.ofNat, dif_pos h]
  rfl

theorem utf8EncodeChar_eq (c : Char) :
    String.utf8EncodeChar c =
      if c.toNat ≤ 0x7F then [.ofNat c.toNat]
      else if c.toNat ≤ 0x7FF then
        [.ofNat (c.toNat / 64 % 32 + 192), .ofNat (c.toNat % 64 + 128)]
      else if c.toNat ≤ 0xFFFF then
        [.ofNat (c.toNat / 4096 % 16 + 224), .ofNat (c.toNat / 64 % 64 + 128),
          .ofNat (c.toNat % 64 + 128)]
      else
        [.ofNat (c.toNat / 262144 % 8 + 240), .ofNat (c.toNat / 4096 % 64 + 128),
          .ofNat (c.toNat / 64 % 64 + 128), .ofNat (c.toNat % 64 + 128)] := rfl

/-! ### What fits is an encoding -/

theorem encode_one (h : lead.toNat ≤ 0x7F) :
    String.utf8EncodeChar (Char.ofNat (gather (leadBits lead) [])) = [lead] := by
  have hn : gather (leadBits lead) [] = lead.toNat := (lead_of_one h).2
  have hvalid : lead.toNat.isValidChar := Or.inl (by omega)
  rw [hn, utf8EncodeChar_eq, toNat_ofNat hvalid, if_pos h, UInt8.ofNat_toNat]

theorem encode_two (hl : 0xC2 ≤ lead.toNat) (hu : lead.toNat ≤ 0xDF)
    (hx : continuation.contains x = true) :
    String.utf8EncodeChar (Char.ofNat (gather (leadBits lead) [x])) = [lead, x] := by
  rw [continuation_contains_iff] at hx
  have hn : gather (leadBits lead) [x] = lead.toNat % 32 * 64 + x.toNat % 64 := by
    rw [(lead_of_two hl hu).2, gather_cons, gather_nil]
  have hvalid : (gather (leadBits lead) [x]).isValidChar := Or.inl (by omega)
  rw [utf8EncodeChar_eq, toNat_ofNat hvalid, if_neg (by omega), if_pos (by omega), hn]
  simp only [List.cons.injEq, ← UInt8.toNat_inj, UInt8.toNat_ofNat', and_true]
  omega

/-- The second byte keeps the number from being below `0x800` or that of a surrogate. -/
theorem encode_three (hl : 0xE0 ≤ lead.toNat) (hu : lead.toNat ≤ 0xEF)
    (hx : (second lead).contains x = true) (hy : continuation.contains y = true) :
    String.utf8EncodeChar (Char.ofNat (gather (leadBits lead) [x, y])) = [lead, x, y] := by
  rw [second_contains_iff] at hx
  rw [continuation_contains_iff] at hy
  have hn : gather (leadBits lead) [x, y] =
      (lead.toNat % 16 * 64 + x.toNat % 64) * 64 + y.toNat % 64 := by
    rw [(lead_of_three hl hu).2, gather_cons, gather_cons, gather_nil]
  have hvalid : (gather (leadBits lead) [x, y]).isValidChar := by
    unfold Nat.isValidChar
    omega
  rw [utf8EncodeChar_eq, toNat_ofNat hvalid, if_neg (by omega), if_neg (by omega),
    if_pos (by omega), hn]
  simp only [List.cons.injEq, ← UInt8.toNat_inj, UInt8.toNat_ofNat', and_true]
  omega

/-- The second byte keeps the number between `0x10000` and the last code point. -/
theorem encode_four (hl : 0xF0 ≤ lead.toNat) (hu : lead.toNat ≤ 0xF4)
    (hx : (second lead).contains x = true) (hy : continuation.contains y = true)
    (hz : continuation.contains z = true) :
    String.utf8EncodeChar (Char.ofNat (gather (leadBits lead) [x, y, z])) = [lead, x, y, z] := by
  rw [second_contains_iff] at hx
  rw [continuation_contains_iff] at hy hz
  have hn : gather (leadBits lead) [x, y, z] =
      ((lead.toNat % 8 * 64 + x.toNat % 64) * 64 + y.toNat % 64) * 64 + z.toNat % 64 := by
    rw [(lead_of_four hl hu).2, gather_cons, gather_cons, gather_cons, gather_nil]
  have hvalid : (gather (leadBits lead) [x, y, z]).isValidChar := by
    unfold Nat.isValidChar
    omega
  rw [utf8EncodeChar_eq, toNat_ofNat hvalid, if_neg (by omega), if_neg (by omega),
    if_neg (by omega), hn]
  simp only [List.cons.injEq, ← UInt8.toNat_inj, UInt8.toNat_ofNat', and_true]
  omega

/-- **Bytes that meet the demand of their lead byte** are the encoding of the character whose number
they carry. -/
theorem utf8EncodeChar_of_fits (hl : followers lead = some ranges) (hb : Fits ranges bytes) :
    String.utf8EncodeChar (Char.ofNat (gather (leadBits lead) bytes)) = lead :: bytes := by
  rcases followers_cases hl with ⟨h, rfl⟩ | ⟨⟨hlow, hhigh⟩, rfl⟩ | ⟨⟨hlow, hhigh⟩, rfl⟩ |
    ⟨⟨hlow, hhigh⟩, rfl⟩
  · obtain rfl := fits_nil_iff.1 hb
    exact encode_one h
  · simp only [fits_cons_iff, fits_nil_iff] at hb
    obtain ⟨x, -, rfl, hx, rfl⟩ := hb
    exact encode_two hlow hhigh hx
  · simp only [fits_cons_iff, fits_nil_iff] at hb
    obtain ⟨x, -, rfl, hx, y, -, rfl, hy, rfl⟩ := hb
    exact encode_three hlow hhigh hx hy
  · simp only [fits_cons_iff, fits_nil_iff] at hb
    obtain ⟨x, -, rfl, hx, y, -, rfl, hy, z, -, rfl, hz, rfl⟩ := hb
    exact encode_four hlow hhigh hx hy hz

/-! ### Each encoding fits -/

theorem exists_byte {n : Nat} (h : n < 256) : ∃ byte : UInt8, byte.toNat = n :=
  ⟨.ofNat n, UInt8.toNat_ofNat_of_lt' h⟩

/-- A continuation byte that carries the given six bits. -/
theorem exists_trail (n : Nat) :
    ∃ byte, continuation.contains byte = true ∧ byte.toNat = n % 64 + 128 := by
  obtain ⟨byte, hbyte⟩ : ∃ byte : UInt8, byte.toNat = n % 64 + 128 := exists_byte (by omega)
  exact ⟨byte, continuation_contains_iff.2 (by omega), hbyte⟩

/-- Every character has bytes that meet the demand of their lead byte. -/
theorem exists_fits (c : Char) :
    ∃ lead ranges bytes, followers lead = some ranges ∧ Fits ranges bytes ∧
      gather (leadBits lead) bytes = c.toNat := by
  -- Each byte after the lead byte carries six bits, from the end; the lead byte has what is left.
  have hvalid : c.toNat < 0xD800 ∨ 0xDFFF < c.toNat ∧ c.toNat < 0x110000 := c.valid
  by_cases h1 : c.toNat ≤ 0x7F
  · obtain ⟨lead, hl⟩ := exists_byte (show c.toNat < 256 by omega)
    have hhigh : lead.toNat ≤ 0x7F := by omega
    obtain ⟨hfollow, hbits⟩ := lead_of_one hhigh
    exact ⟨lead, [], [], hfollow, trivial, hbits.trans hl⟩
  by_cases h2 : c.toNat ≤ 0x7FF
  · obtain ⟨lead, hl⟩ := exists_byte (show c.toNat / 64 + 192 < 256 by omega)
    obtain ⟨x, hx, hxn⟩ := exists_trail c.toNat
    have hlow : 0xC2 ≤ lead.toNat := by omega
    have hhigh : lead.toNat ≤ 0xDF := by omega
    obtain ⟨hfollow, hbits⟩ := lead_of_two hlow hhigh
    refine ⟨lead, _, [x], hfollow, ⟨hx, trivial⟩, ?_⟩
    rw [hbits, gather_cons, gather_nil]
    omega
  by_cases h3 : c.toNat ≤ 0xFFFF
  · obtain ⟨lead, hl⟩ := exists_byte (show c.toNat / 4096 + 224 < 256 by omega)
    obtain ⟨x, hx, hxn⟩ := exists_trail (c.toNat / 64)
    obtain ⟨y, hy, hyn⟩ := exists_trail c.toNat
    have hlow : 0xE0 ≤ lead.toNat := by omega
    have hhigh : lead.toNat ≤ 0xEF := by omega
    obtain ⟨hfollow, hbits⟩ := lead_of_three hlow hhigh
    refine ⟨lead, _, [x, y], hfollow, ⟨second_contains_iff.2 (by omega), hy, trivial⟩, ?_⟩
    rw [hbits, gather_cons, gather_cons, gather_nil]
    omega
  · obtain ⟨lead, hl⟩ := exists_byte (show c.toNat / 262144 + 240 < 256 by omega)
    obtain ⟨x, hx, hxn⟩ := exists_trail (c.toNat / 4096)
    obtain ⟨y, hy, hyn⟩ := exists_trail (c.toNat / 64)
    obtain ⟨z, hz, hzn⟩ := exists_trail c.toNat
    have hlow : 0xF0 ≤ lead.toNat := by omega
    have hhigh : lead.toNat ≤ 0xF4 := by omega
    obtain ⟨hfollow, hbits⟩ := lead_of_four hlow hhigh
    refine ⟨lead, _, [x, y, z], hfollow, ⟨second_contains_iff.2 (by omega), hy, hz, trivial⟩, ?_⟩
    rw [hbits, gather_cons, gather_cons, gather_cons, gather_nil]
    omega

/-- **What is the encoding of a character**: bytes that meet the demand of their lead byte, and it
is the character whose number they carry. -/
theorem utf8EncodeChar_eq_cons_iff :
    String.utf8EncodeChar c = lead :: bytes ↔
      ∃ ranges, followers lead = some ranges ∧ Fits ranges bytes ∧
        c = Char.ofNat (gather (leadBits lead) bytes) := by
  constructor
  · intro h
    obtain ⟨lead', ranges, bytes', hl, hb, hn⟩ := exists_fits c
    have hc : c = Char.ofNat (gather (leadBits lead') bytes') := by rw [hn, Char.ofNat_toNat]
    -- Bytes that fit and carry the number of `c` are its encoding, so they are the given ones.
    have hsame := utf8EncodeChar_of_fits hl hb
    rw [← hc, h] at hsame
    obtain ⟨rfl, rfl⟩ := List.cons.inj hsame
    exact ⟨ranges, hl, hb, hc⟩
  · rintro ⟨ranges, hl, hb, rfl⟩
    exact utf8EncodeChar_of_fits hl hb

theorem exists_utf8EncodeChar_eq_cons (c : Char) :
    ∃ lead bytes, String.utf8EncodeChar c = lead :: bytes :=
  List.exists_cons_of_ne_nil String.utf8EncodeChar_ne_nil

/-- **No encoding is the beginning of another one.**  The lead byte tells how many bytes there are,
so two texts that begin with a character and agree in their bytes begin with the same one. -/
theorem utf8EncodeChar_append_inj
    (h : String.utf8EncodeChar c ++ rest = String.utf8EncodeChar d ++ other) :
    c = d ∧ rest = other := by
  obtain ⟨lead, front, hc⟩ := exists_utf8EncodeChar_eq_cons c
  obtain ⟨lead', front', hd⟩ := exists_utf8EncodeChar_eq_cons d
  rw [hc, hd, List.cons_append, List.cons_append] at h
  obtain ⟨rfl, hsame⟩ := List.cons.inj h
  obtain ⟨ranges, hl, hb, rfl⟩ := utf8EncodeChar_eq_cons_iff.1 hc
  obtain ⟨ranges', hl', hb', rfl⟩ := utf8EncodeChar_eq_cons_iff.1 hd
  obtain rfl : ranges = ranges' := Option.some.inj (hl.symm.trans hl')
  obtain ⟨rfl, rfl⟩ := List.append_inj hsame (hb.length_eq.trans hb'.length_eq.symm)
  exact ⟨rfl, rfl⟩

end Utf8

end StarPattern
