import Synora.Lib.Base64Url

/- The characters of bytes, as Go reads a string: each byte that begins no character
   counts as one replacement character. A text is read as itself (`runes_utf8`). -/
namespace Utf8

/-- The characters that a first byte may begin: how many bytes follow, the bounds of the
second byte, and the bits of the first. -/
def lead (b : Nat) : Option (Nat × Nat × Nat × Nat) :=
  if 0xC2 ≤ b ∧ b ≤ 0xDF then some (1, 0x80, 0xBF, b % 32)
  else if b = 0xE0 then some (2, 0xA0, 0xBF, b % 16)
  else if 0xE1 ≤ b ∧ b ≤ 0xEC then some (2, 0x80, 0xBF, b % 16)
  else if b = 0xED then some (2, 0x80, 0x9F, b % 16)
  else if 0xEE ≤ b ∧ b ≤ 0xEF then some (2, 0x80, 0xBF, b % 16)
  else if b = 0xF0 then some (3, 0x90, 0xBF, b % 8)
  else if 0xF1 ≤ b ∧ b ≤ 0xF3 then some (3, 0x80, 0xBF, b % 8)
  else if b = 0xF4 then some (3, 0x80, 0x8F, b % 8)
  else none

def isTail (b : Nat) : Bool := decide (0x80 ≤ b ∧ b ≤ 0xBF)

/-- `utf8.DecodeRune`: a character, and how many bytes of it follow the first. -/
def decodeRune (bs : List UInt8) : Char × Nat :=
  match bs.map UInt8.toNat with
  | [] => ('\ufffd', 0)
  | b :: rest =>
    if b < 0x80 then (Char.ofNat b, 0)
    else
      match lead b, rest with
      | some (1, lo, hi, bits), c :: _ =>
        if lo ≤ c ∧ c ≤ hi then (Char.ofNat (bits * 64 + c % 64), 1) else ('\ufffd', 0)
      | some (2, lo, hi, bits), c :: d :: _ =>
        if lo ≤ c ∧ c ≤ hi ∧ isTail d = true then
          (Char.ofNat (bits * 4096 + c % 64 * 64 + d % 64), 2)
        else ('\ufffd', 0)
      | some (3, lo, hi, bits), c :: d :: e :: _ =>
        if lo ≤ c ∧ c ≤ hi ∧ isTail d = true ∧ isTail e = true then
          (Char.ofNat (bits * 262144 + c % 64 * 4096 + d % 64 * 64 + e % 64), 3)
        else ('\ufffd', 0)
      | _, _ => ('\ufffd', 0)

/-- The characters of bytes, after `skip` bytes of a character already read. -/
def runesFrom : Nat → List UInt8 → List Char
  | _, [] => []
  | skip + 1, _ :: bs => runesFrom skip bs
  | 0, b :: bs => (decodeRune (b :: bs)).1 :: runesFrom (decodeRune (b :: bs)).2 bs

/-- The characters of bytes: of a text the text, of others character by character. -/
def runes (bs : List UInt8) : List Char :=
  match bs.toByteArray.utf8Decode? with
  | some cs => cs.toList
  | none => runesFrom 0 bs

@[simp] theorem runes_utf8 (cs : List Char) : runes (Base64Url.utf8 cs) = cs := by
  have h : (Base64Url.utf8 cs).toByteArray.utf8Decode? = some cs.toArray := List.utf8Decode?_utf8Encode
  rw [runes, h]

end Utf8
