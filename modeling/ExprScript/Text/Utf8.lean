import ExprScript.Text.Basic

/-!
# Text as bytes

- `Utf8.encode` writes a text; a surrogate without its partner is written as U+FFFD;
- `Utf8.decode` reads any bytes; every maximal part that starts like a character and is then cut short or broken
  gives one U+FFFD, and so does every byte that starts no character.
-/

namespace ExprScript.Utf8

/-- The code point written for what cannot be written or read. -/
def replacement : Nat := 0xFFFD

/-- The bytes of a code point. -/
def encodePoint (n : Nat) : List UInt8 :=
  if n < 0x80 then [n.toUInt8]
  else if n < 0x800 then [(0xC0 + n / 0x40).toUInt8, (0x80 + n % 0x40).toUInt8]
  else if n < 0x10000 then
    [(0xE0 + n / 0x1000).toUInt8, (0x80 + n / 0x40 % 0x40).toUInt8, (0x80 + n % 0x40).toUInt8]
  else
    [(0xF0 + n / 0x40000).toUInt8, (0x80 + n / 0x1000 % 0x40).toUInt8, (0x80 + n / 0x40 % 0x40).toUInt8,
      (0x80 + n % 0x40).toUInt8]

/-- The bytes of a unit that is not part of a surrogate pair. -/
def encodeUnit (u : CodeUnit) : List UInt8 :=
  if u.isHigh || u.isLow then encodePoint replacement else encodePoint u.toNat

/-- The bytes of a text. -/
def encode : Text → List UInt8
  | [] => []
  | [u] => encodeUnit u
  | u :: v :: rest =>
    if u.isHigh && v.isLow then encodePoint (CodeUnit.codePointOfPair u v) ++ encode rest
    else encodeUnit u ++ encode (v :: rest)

/-- What has been read of a character: how many bytes are missing, between which bounds the next one lies, and the
value of the bits so far. -/
structure Pending where
  missing : Nat
  lower : UInt8
  upper : UInt8
  value : Nat

/-- Reads a byte that starts a character: the units it gives, or the character it opens. -/
def decodeLead (b : UInt8) : Text × Option Pending :=
  if b < 0x80 then ([b.toNat.toUInt16], none)
  else if 0xC2 ≤ b && b < 0xE0 then ([], some ⟨1, 0x80, 0xBF, b.toNat - 0xC0⟩)
  else if 0xE0 ≤ b && b < 0xF0 then
    ([], some ⟨2, if b = 0xE0 then 0xA0 else 0x80, if b = 0xED then 0x9F else 0xBF, b.toNat - 0xE0⟩)
  else if 0xF0 ≤ b && b < 0xF5 then
    ([], some ⟨3, if b = 0xF0 then 0x90 else 0x80, if b = 0xF4 then 0x8F else 0xBF, b.toNat - 0xF0⟩)
  else (CodeUnit.ofCodePoint replacement, none)

/-- Reads one byte. -/
def decodeByte : Option Pending → UInt8 → Text × Option Pending
  | none, b => decodeLead b
  | some p, b =>
    if p.lower ≤ b && b ≤ p.upper then
      let value := p.value * 0x40 + (b.toNat - 0x80)
      if p.missing ≤ 1 then (CodeUnit.ofCodePoint value, none)
      else ([], some ⟨p.missing - 1, 0x80, 0xBF, value⟩)
    else
      let (units, next) := decodeLead b
      (CodeUnit.ofCodePoint replacement ++ units, next)

/-- Reads bytes in the middle of a character or between two. -/
def decodeFrom : Option Pending → List UInt8 → Text
  | none, [] => []
  | some _, [] => CodeUnit.ofCodePoint replacement
  | p, b :: rest =>
    let (units, next) := decodeByte p b
    units ++ decodeFrom next rest

/-- The text of a sequence of bytes. -/
def decode (bytes : List UInt8) : Text := decodeFrom none bytes

end ExprScript.Utf8
