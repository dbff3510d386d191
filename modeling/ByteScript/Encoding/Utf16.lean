import ByteScript.Encoding.Charset

/-!
# UTF-16

A code point below `0x10000` is one unit of two bytes; any other is a pair of surrogates. The two
orders of the bytes in a unit give two character sets.

* `Utf16.units`: the units of a character; `Utf16.decodeChar?`: the first character of bytes;
* `Charset.utf16`: the character set for an order of bytes.
-/

namespace ByteScript

namespace Utf16

/-- The units of a character. -/
def units (c : Char) : List Nat :=
  let n := c.toNat
  if n < 0x10000 then [n]
  else [0xd800 + (n - 0x10000) / 1024, 0xdc00 + (n - 0x10000) % 1024]

/-- The bytes of a unit. -/
def unitBytes (bigEndianUnits : Bool) (u : Nat) : Bytes :=
  if bigEndianUnits then [UInt8.ofNat (u / 256), UInt8.ofNat u]
  else [UInt8.ofNat u, UInt8.ofNat (u / 256)]

/-- The unit with these two bytes. -/
def unitOf (bigEndianUnits : Bool) (a b : UInt8) : Nat :=
  if bigEndianUnits then a.toNat * 256 + b.toNat else b.toNat * 256 + a.toNat

/-- The first character of a byte string and the number of its bytes; a surrogate stands for
nothing without its partner. -/
def decodeChar? (bigEndianUnits : Bool) : Bytes → Option (Char × Nat)
  | a :: b :: bs =>
    let u := unitOf bigEndianUnits a b
    if u < 0xd800 ∨ 0xe000 ≤ u then (char? u).map (·, 2)
    else if u < 0xdc00 then
      match bs with
      | c :: d :: _ =>
        let v := unitOf bigEndianUnits c d
        if 0xdc00 ≤ v ∧ v < 0xe000 then
          (char? (0x10000 + (u - 0xd800) * 1024 + (v - 0xdc00))).map (·, 4)
        else none
      | _ => none
    else none
  | _ => none

end Utf16

/-- The character set UTF-16 with the bytes of a unit in the given order. -/
def Charset.utf16 (bigEndianUnits : Bool) : Charset where
  encodeChar? c := some ((Utf16.units c).flatMap (Utf16.unitBytes bigEndianUnits))
  decodeChar? := Utf16.decodeChar? bigEndianUnits

example : (Charset.utf16 true).encode? ['A', '😀'] = some [0, 0x41, 0xd8, 0x3d, 0xde, 0] := by decide

end ByteScript
