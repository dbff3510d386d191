import ByteScript.Encoding.Charset

/-!
# UTF-8

A code point takes one to four bytes: a leading byte that tells their number, then bytes of six
bits each. The shortest form is the only one, and surrogates have none.

* `Utf8.encodeChar`, `Utf8.decodeChar?`: the form of one character;
* `Charset.utf8`: the character set.
-/

namespace ByteScript

namespace Utf8

/-- The form of a character. -/
def encodeChar (c : Char) : Bytes :=
  let n := c.toNat
  if n < 0x80 then [UInt8.ofNat n]
  else if n < 0x800 then [UInt8.ofNat (0xc0 + n / 64), UInt8.ofNat (0x80 + n % 64)]
  else if n < 0x10000 then
    [UInt8.ofNat (0xe0 + n / 4096), UInt8.ofNat (0x80 + n / 64 % 64), UInt8.ofNat (0x80 + n % 64)]
  else
    [UInt8.ofNat (0xf0 + n / 262144), UInt8.ofNat (0x80 + n / 4096 % 64),
      UInt8.ofNat (0x80 + n / 64 % 64), UInt8.ofNat (0x80 + n % 64)]

/-- The six bits of a byte that continues a character. -/
def sixBits? (b : UInt8) : Option Nat :=
  if 0x80 ≤ b.toNat ∧ b.toNat < 0xc0 then some (b.toNat - 0x80) else none

/-- The character with a code point from `low` on. -/
def charFrom? (low n : Nat) : Option Char := if low ≤ n then char? n else none

/-- The first character of a byte string and the number of its bytes. -/
def decodeChar? : Bytes → Option (Char × Nat)
  | [] => none
  | a :: bs =>
    if a.toNat < 0x80 then (char? a.toNat).map (·, 1)
    else if a.toNat < 0xc0 then none
    else if a.toNat < 0xe0 then
      match bs with
      | b :: _ => do
        let b ← sixBits? b
        let c ← charFrom? 0x80 ((a.toNat - 0xc0) * 64 + b)
        return (c, 2)
      | _ => none
    else if a.toNat < 0xf0 then
      match bs with
      | b :: c :: _ => do
        let b ← sixBits? b
        let c ← sixBits? c
        let c ← charFrom? 0x800 (((a.toNat - 0xe0) * 64 + b) * 64 + c)
        return (c, 3)
      | _ => none
    else if a.toNat < 0xf8 then
      match bs with
      | b :: c :: d :: _ => do
        let b ← sixBits? b
        let c ← sixBits? c
        let d ← sixBits? d
        let c ← charFrom? 0x10000 ((((a.toNat - 0xf0) * 64 + b) * 64 + c) * 64 + d)
        return (c, 4)
      | _ => none
    else none

end Utf8

/-- The character set UTF-8. -/
def Charset.utf8 : Charset := ⟨fun c => some (Utf8.encodeChar c), Utf8.decodeChar?⟩

example : Charset.utf8.encode? ['é', '漢', '😀'] =
    some [0xc3, 0xa9, 0xe6, 0xbc, 0xa2, 0xf0, 0x9f, 0x98, 0x80] := by decide

example : Utf8.decodeChar? [0xed, 0xa0, 0x80] = none ∧ Utf8.decodeChar? [0xc0, 0x80] = none := by
  decide

end ByteScript
