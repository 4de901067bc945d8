import RaidTimeline.Text.Basic

/-!
# UTF-8

Texts are stored as UTF-8.  Reading stops at the first sequence of octets that is not the
shortest code of a character, and names the octets at fault and the reason.

Main results:

- Definition {lit}`Text.encode`: the octets of a text.
- Definition {lit}`Text.decode`: the text of some octets, or the first fault.
-/

namespace RaidTimeline

/-- Why a sequence of octets is not the code of a character. -/
inductive Utf8Reason where
  | start
  | continuation
  | unfinished
deriving DecidableEq, Repr

/-- The octets at fault: the offset of the first, how many there are, their first value. -/
structure Utf8Fault where
  offset : Nat
  length : Nat
  first : UInt8
  reason : Utf8Reason
deriving DecidableEq, Repr

namespace Text

/-- The octets of one character. -/
def encodeChar (c : Char) : List UInt8 :=
  let n := c.toNat
  if n < 0x80 then [n.toUInt8]
  else if n < 0x800 then [(0xC0 + n / 0x40).toUInt8, (0x80 + n % 0x40).toUInt8]
  else if n < 0x10000 then
    [(0xE0 + n / 0x1000).toUInt8, (0x80 + n / 0x40 % 0x40).toUInt8, (0x80 + n % 0x40).toUInt8]
  else
    [(0xF0 + n / 0x40000).toUInt8, (0x80 + n / 0x1000 % 0x40).toUInt8,
      (0x80 + n / 0x40 % 0x40).toUInt8, (0x80 + n % 0x40).toUInt8]

/-- The octets of a text. -/
def encode (t : Text) : List UInt8 := t.flatMap encodeChar

/-- How many octets follow a first octet, and the range of the first of them; the range keeps
out overlong codes, surrogates and code points that do not exist. -/
def continuationsOf (first : Nat) : Option (Nat × Nat × Nat) :=
  if 0xC2 ≤ first && first ≤ 0xDF then some (1, 0x80, 0xBF)
  else if first == 0xE0 then some (2, 0xA0, 0xBF)
  else if first == 0xED then some (2, 0x80, 0x9F)
  else if 0xE1 ≤ first && first ≤ 0xEF then some (2, 0x80, 0xBF)
  else if first == 0xF0 then some (3, 0x90, 0xBF)
  else if 0xF1 ≤ first && first ≤ 0xF3 then some (3, 0x80, 0xBF)
  else if first == 0xF4 then some (3, 0x80, 0x8F)
  else none

/-- The bits that the first octet of a longer code contributes. -/
def leadingBits (first : Nat) : Nat :=
  if first < 0xE0 then first % 0x20 else if first < 0xF0 then first % 0x10 else first % 0x08

/-- Reads octets.  Within a longer code {lit}`seen` octets have been read, {lit}`missing` are
still to come, the next of them lies between {lit}`low` and {lit}`high`, and {lit}`code` holds
the bits so far. -/
def decodeFrom (offset : Nat) (first : UInt8) (seen missing low high code : Nat) :
    List UInt8 → Except Utf8Fault Text
  | [] => if missing = 0 then .ok [] else .error ⟨offset, seen, first, .unfinished⟩
  | b :: rest =>
      let n := b.toNat
      if missing = 0 then
        if n < 0x80 then
          (decodeFrom (offset + 1) first 0 0 0 0 0 rest).map (Char.ofNat n :: ·)
        else
          match continuationsOf n with
          | none => .error ⟨offset, 1, b, .start⟩
          | some (count, low, high) => decodeFrom offset b 1 count low high (leadingBits n) rest
      else if low ≤ n ∧ n ≤ high then
        let code := code * 0x40 + n % 0x40
        if missing = 1 then
          (decodeFrom (offset + seen + 1) first 0 0 0 0 0 rest).map (Char.ofNat code :: ·)
        else decodeFrom offset first (seen + 1) (missing - 1) 0x80 0xBF code rest
      else .error ⟨offset, seen, first, .continuation⟩

/-- The text of some octets, or the first fault in them. -/
def decode (octets : List UInt8) : Except Utf8Fault Text := decodeFrom 0 0 0 0 0 0 0 octets

end Text

/-- The words for a reason. -/
def Utf8Reason.message : Utf8Reason → Text
  | .start => "invalid start byte".toList
  | .continuation => "invalid continuation byte".toList
  | .unfinished => "unexpected end of data".toList

/-- The words for a fault: one octet is shown with its value, several with their offsets. -/
def Utf8Fault.message (fault : Utf8Fault) : Text :=
  "'utf-8' codec can't decode ".toList
    ++ (if fault.length = 1 then
          "byte 0x".toList ++ Text.ofHex 2 fault.first.toNat ++ " in position ".toList
            ++ Text.ofNat fault.offset
        else
          "bytes in position ".toList ++ Text.ofNat fault.offset ++ ['-']
            ++ Text.ofNat (fault.offset + fault.length - 1))
    ++ ": ".toList ++ fault.reason.message

end RaidTimeline
