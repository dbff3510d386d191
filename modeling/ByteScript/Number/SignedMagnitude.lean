import ByteScript.Number.Digits
import ByteScript.Number.BigEndian

/-!
# Sign and magnitude

The value of an integer literal: a sign beside a magnitude of at most 128 bits, so that the whole
unsigned range can be written as well as negative numbers.

* `SignedMagnitude.read?`: from the digits of a literal;
* `SignedMagnitude.fits`: the widths at which the value can be written;
* `SignedMagnitude.minimalWidth`: the least such width, in closed form;
* `SignedMagnitude.toBytes?`: the two's-complement form at a width.
-/

namespace ByteScript

/-- An integer of at most 128 bits beside its sign. -/
structure SignedMagnitude where
  negative : Bool
  magnitude : Nat
  magnitude_lt : magnitude < Nat.pow 2 128
deriving DecidableEq

theorem unsigned?_lt {bits radix n : Nat} {s : Text} (h : unsigned? bits radix s = some n) :
    n < Nat.pow 2 bits := by
  simp only [unsigned?, Option.filter_eq_some_iff, decide_eq_true_eq] at h
  exact h.2

namespace SignedMagnitude

/-- The number that a sign and a magnitude stand for. -/
def value (x : SignedMagnitude) : Int := if x.negative then -(x.magnitude : Int) else x.magnitude

/-- The literal with these digits; zero has no sign. -/
def read? (radix : Nat) (digits : Text) (negative : Bool) : Option SignedMagnitude :=
  match h : unsigned? 128 radix digits with
  | none => none
  | some m => some ⟨negative && m != 0, m, unsigned?_lt h⟩

/-- The value can be written in `w` bytes. -/
def fits (x : SignedMagnitude) (w : Nat) : Bool :=
  16 < w || if w = 0 then x.magnitude = 0
    else if x.negative then x.magnitude ≤ Nat.pow 2 (8 * w - 1)
    else x.magnitude < Nat.pow 2 (8 * w)

/-- The number of binary digits, none for zero. -/
def bitLength (n : Nat) : Nat := if n = 0 then 0 else n.log2 + 1

/-- The fewest bytes that hold the value, one for zero: a negative value needs room for its sign
bit beside the bits of its magnitude less one. -/
def minimalWidth (x : SignedMagnitude) : Nat :=
  if x.negative then bitLength (x.magnitude - 1) / 8 + 1
  else max 1 ((bitLength x.magnitude + 7) / 8)

/-- The value modulo `2 ^ 128`. -/
def word (x : SignedMagnitude) : Nat :=
  if x.negative then Nat.pow 2 128 - x.magnitude else x.magnitude

/-- The byte that widens the value. -/
def fill (x : SignedMagnitude) : UInt8 := if x.negative then 0xff else 0

/-- The two's-complement form in `w` bytes, if the value fits. -/
def toBytes? (x : SignedMagnitude) (w : Nat) : Option Bytes :=
  if x.fits w then some (List.replicate (w - 16) x.fill ++ bigEndian (min w 16) x.word) else none

theorem length_of_toBytes? {x : SignedMagnitude} {w : Nat} {bs : Bytes}
    (h : x.toBytes? w = some bs) : bs.length = w := by
  simp only [toBytes?] at h
  split at h
  · obtain rfl := Option.some.inj h
    simp
  · cases h

end SignedMagnitude

end ByteScript
