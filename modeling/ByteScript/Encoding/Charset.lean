import ByteScript.Text.Basic

/-!
# Character sets

An encoding of texts works character by character: a character set gives the bytes of each
character and reads the first character of a byte string. Texts are encoded by running through
their characters and decoded by running through the bytes; neither replaces what it cannot map.

* `Charset`, `Charset.encode?`, `Charset.decode?`;
* `char?`: the character with a code point.
-/

namespace ByteScript

/-- The character with this code point, if it is one of a character. -/
def char? (n : Nat) : Option Char := if h : n.isValidChar then some (Char.ofNatAux n h) else none

theorem char?_toNat (c : Char) : char? c.toNat = some c := by
  have hv : c.toNat.isValidChar := c.valid
  rw [char?, dif_pos hv]
  rfl

/-- The bytes of each character, and the first character of a byte string with its length. -/
structure Charset where
  encodeChar? : Char → Option Bytes
  decodeChar? : Bytes → Option (Char × Nat)

namespace Charset

variable (cs : Charset)

/-- The bytes of a text; nothing if a character has none. -/
def encode? : Text → Option Bytes
  | [] => some []
  | c :: s => do
    let bs ← cs.encodeChar? c
    let rest ← encode? s
    return bs ++ rest

/-- The text that bytes stand for; nothing if they are malformed. -/
def decode? : Bytes → Option Text
  | [] => some []
  | b :: bs => do
    let (c, n) ← cs.decodeChar? (b :: bs)
    let rest ← decode? (bs.drop (n - 1))
    return c :: rest
termination_by bs => bs.length

end Charset

end ByteScript
