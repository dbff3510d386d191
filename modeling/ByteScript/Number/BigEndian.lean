import ByteScript.Text.Basic

/-!
# Big-endian words

Byte strings as numbers, most significant byte first.

* `bigEndian w n`: the low `w` bytes of `n`; `ofBigEndian`: the number that bytes denote;
* `ofBigEndian_bigEndian`, `bigEndian_ofBigEndian`: the two are inverse up to the width;
* `signedValue?`, `unsignedValue?`: the readings of a field in 128 bits.
-/

namespace ByteScript

/-! ## Numbers and their bytes -/

/-- The low `w` bytes of a number, most significant first. -/
def bigEndian : (w n : Nat) → Bytes
  | 0, _ => []
  | w + 1, n => bigEndian w (n / 256) ++ [UInt8.ofNat n]

/-- The number that bytes denote, most significant first. -/
def ofBigEndian (bs : Bytes) : Nat := bs.foldl (fun n b => n * 256 + b.toNat) 0

@[simp] theorem length_bigEndian (w n : Nat) : (bigEndian w n).length = w := by
  induction w generalizing n with
  | zero => rfl
  | succ w ih => simp [bigEndian, ih]

theorem ofBigEndian_append_singleton (bs : Bytes) (b : UInt8) :
    ofBigEndian (bs ++ [b]) = ofBigEndian bs * 256 + b.toNat := by
  simp [ofBigEndian, List.foldl_append]

/-- **The low bytes of a number denote its remainder.** -/
theorem ofBigEndian_bigEndian (w n : Nat) : ofBigEndian (bigEndian w n) = n % Nat.pow 256 w := by
  induction w generalizing n with
  | zero => simp [bigEndian, ofBigEndian, Nat.mod_one]
  | succ w ih =>
    have h : (UInt8.ofNat n).toNat = n % 256 := by rw [UInt8.toNat_ofNat']
    rw [bigEndian, ofBigEndian_append_singleton, ih, h, Nat.pow, Nat.mul_eq,
      Nat.mul_comm (Nat.pow 256 w), Nat.mod_mul]
    omega

/-- **Bytes are the big-endian form of the number they denote.** -/
theorem bigEndian_ofBigEndian (bs : Bytes) : bigEndian bs.length (ofBigEndian bs) = bs := by
  suffices h : ∀ l : Bytes, bigEndian l.length (ofBigEndian l.reverse) = l.reverse by
    simpa using h bs.reverse
  intro l
  induction l with
  | nil => rfl
  | cons b l ih =>
    have hb := b.toNat_lt
    rw [List.length_cons, List.reverse_cons, ofBigEndian_append_singleton, bigEndian,
      show (ofBigEndian l.reverse * 256 + b.toNat) / 256 = ofBigEndian l.reverse by omega, ih]
    congr 2
    apply UInt8.toNat_inj.mp
    rw [UInt8.toNat_ofNat']
    omega

theorem ofBigEndian_lt (bs : Bytes) : ofBigEndian bs < Nat.pow 256 bs.length := by
  rw [← bigEndian_ofBigEndian bs, ofBigEndian_bigEndian, length_bigEndian]
  exact Nat.mod_lt _ (Nat.pow_pos (by decide))

/-! ## Fields as numbers -/

/-- The first byte has its top bit set; the empty string does not. -/
def leadingBit : Bytes → Bool
  | [] => false
  | b :: _ => 128 ≤ b.toNat

/-- The byte that continues a value to the left: all ones if the leading bit is set. -/
def signByte (bs : Bytes) : UInt8 := if leadingBit bs then 0xff else 0

/-- The two's-complement value of a word of at most 16 bytes. -/
def wordValue (bs : Bytes) : Int :=
  if leadingBit bs then (ofBigEndian bs : Int) - Nat.pow 256 bs.length else ofBigEndian bs

/-- The signed value of a field in 128 bits, the empty field being zero: a wider field has one only
if its extra leading bytes repeat the sign. -/
def signedValue? (bs : Bytes) : Option Int :=
  let extra := bs.take (bs.length - 16)
  let word := bs.drop (bs.length - 16)
  if extra.all (· == signByte bs) && leadingBit word == leadingBit bs then some (wordValue word)
  else none

/-- The unsigned value of a field of at most 16 bytes. -/
def unsignedValue? (bs : Bytes) : Option Nat :=
  if bs.length ≤ 16 then some (ofBigEndian bs) else none

example : signedValue? [0xff, 0xfe] = some (-2) ∧ signedValue? [] = some 0 := by decide

end ByteScript
