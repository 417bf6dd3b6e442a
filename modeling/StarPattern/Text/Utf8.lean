/-
**UTF-8.**

The encoding of a text as bytes, and a strict reader that goes through the bytes once, from left to
right.  Between two characters the reader looks at a lead byte, which fixes how many bytes follow
and from which range each of them has to come; inside a character it keeps the ranges that are still
owed.  The range of the second byte excludes overlong forms, surrogates and numbers above the last
code point, so that exactly the shortest forms of scalar values are read.  What cannot be read is
reported as the damage at the first faulty character: its offset, its extent and the reason.

Main definitions:

* `StarPattern.Utf8.encode` — the bytes of a text;
* `StarPattern.Utf8.followers` — what a lead byte demands of the bytes after it;
* `StarPattern.Utf8.Damage` — where and why bytes are not the encoding of a text;
* `StarPattern.Utf8.decode` — the text that bytes encode, or the first damage.
-/
import StarPattern.Text.Basic

set_option relaxedAutoImplicit false
set_option autoImplicit false

namespace StarPattern

namespace Utf8

/-- The bytes of a text, each character in its shortest form. -/
def encode (text : Text) : List UInt8 := text.flatMap String.utf8EncodeChar

@[simp] theorem encode_nil : encode [] = [] := rfl

@[simp] theorem encode_cons (c : Char) (text : Text) :
    encode (c :: text) = String.utf8EncodeChar c ++ encode text := rfl

@[simp] theorem encode_append (first second : Text) :
    encode (first ++ second) = encode first ++ encode second := by simp [encode]

/-! ### What a lead byte demands -/

/-- An interval of byte values, both ends included. -/
structure ByteRange where
  least : UInt8
  greatest : UInt8
  deriving DecidableEq, Repr

/-- Whether a byte lies in the interval. -/
def ByteRange.contains (range : ByteRange) (byte : UInt8) : Bool :=
  range.least ≤ byte && byte ≤ range.greatest

/-- The range of all continuation bytes. -/
def continuation : ByteRange := ⟨0x80, 0xBF⟩

/-- The ranges of the bytes that follow a lead byte, in order; `none` if no character starts with
this byte. -/
def followers (lead : UInt8) : Option (List ByteRange) :=
  if lead ≤ 0x7F then some []
  else if lead ≤ 0xC1 then none
  else if lead ≤ 0xDF then some [continuation]
  else if lead = 0xE0 then some [⟨0xA0, 0xBF⟩, continuation]
  else if lead = 0xED then some [⟨0x80, 0x9F⟩, continuation]
  else if lead ≤ 0xEF then some [continuation, continuation]
  else if lead = 0xF0 then some [⟨0x90, 0xBF⟩, continuation, continuation]
  else if lead ≤ 0xF3 then some [continuation, continuation, continuation]
  else if lead = 0xF4 then some [⟨0x80, 0x8F⟩, continuation, continuation]
  else none

/-- The part of the character's number that the lead byte carries: what its marker bits leave. -/
def leadBits (lead : UInt8) : Nat :=
  if lead ≤ 0x7F then lead.toNat
  else if lead ≤ 0xDF then lead.toNat % 32
  else if lead ≤ 0xEF then lead.toNat % 16
  else lead.toNat % 8

/-! ### Damage -/

/-- Why a sequence of bytes is not the encoding of a character. -/
inductive Reason
  | invalidStart
  | invalidContinuation
  | unexpectedEnd
  deriving DecidableEq, Repr

/-- The words for a reason. -/
def Reason.message : Reason → Text
  | invalidStart => "invalid start byte".toList
  | invalidContinuation => "invalid continuation byte".toList
  | unexpectedEnd => "unexpected end of data".toList

/-- The first faulty sequence: its lead byte, the offset of that byte, the number of bytes up to the
fault, and the reason. -/
structure Damage where
  lead : UInt8
  start : Nat
  length : Nat
  reason : Reason
  deriving DecidableEq, Repr

/-- A single byte is named by its value, a longer sequence by the offsets of its first and its last
byte. -/
def Damage.message (damage : Damage) : Text :=
  "'utf-8' codec can't decode byte".toList ++
    (if damage.length = 1 then
      " 0x".toList ++ Nat.toDigits 16 damage.lead.toNat ++ " in position ".toList ++
        Text.numeral damage.start
    else
      "s in position ".toList ++ Text.numeral damage.start ++ '-' ::
        Text.numeral (damage.start + damage.length - 1)) ++
    ": ".toList ++ damage.reason.message

/-! ### The reader -/

/-- A character of which some bytes have been read: its lead byte, how many bytes were read, the
number that they make up so far, the range of the next byte and the ranges of those after it. -/
structure Unfinished where
  lead : UInt8
  taken : Nat
  value : Nat
  next : ByteRange
  owed : List ByteRange
  deriving DecidableEq, Repr

/-- The reader between two characters (`none`) or inside one, which started at the given offset. -/
def decodeFrom : (start : Nat) → Option Unfinished → List UInt8 → Except Damage Text
  | _, none, [] => .ok []
  | start, some u, [] => .error ⟨u.lead, start, u.taken, .unexpectedEnd⟩
  | start, none, byte :: rest =>
    match followers byte with
    | none => .error ⟨byte, start, 1, .invalidStart⟩
    | some [] => (Char.ofNat (leadBits byte) :: ·) <$> decodeFrom (start + 1) none rest
    | some (next :: owed) => decodeFrom start (some ⟨byte, 1, leadBits byte, next, owed⟩) rest
  | start, some u, byte :: rest =>
    if u.next.contains byte then
      let value := u.value * 64 + byte.toNat % 64
      match u.owed with
      | [] => (Char.ofNat value :: ·) <$> decodeFrom (start + u.taken + 1) none rest
      | next :: owed => decodeFrom start (some ⟨u.lead, u.taken + 1, value, next, owed⟩) rest
    else .error ⟨u.lead, start, u.taken, .invalidContinuation⟩

/-- The text that the bytes encode, or the first damage. -/
def decode (bytes : List UInt8) : Except Damage Text := decodeFrom 0 none bytes

example : decode [0xC3, 0xA9, 0x21] = .ok ['é', '!'] := rfl

example : decode [0x61, 0xE2, 0x82, 0x28] = .error ⟨0xE2, 1, 2, .invalidContinuation⟩ := rfl

end Utf8

end StarPattern
