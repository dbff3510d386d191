import ByteScript.Proofs.Number.TwosComplement

/-!
# The least width of a value

The least width is found from the number of binary digits of a magnitude, the widths that hold a
value by comparing it with powers of two. Both say the same.

* `SignedMagnitude.bitLength_le_iff`: binary digits and powers of two;
* **`SignedMagnitude.minimalWidth_le_iff`**: of the widths from one byte on, a value can be written
  at its least one and at those above it;
* `SignedMagnitude.one_le_minimalWidth`, `SignedMagnitude.minimalWidth_le`: its range.
-/

namespace ByteScript

namespace SignedMagnitude

theorem bitLength_le_iff {n k : Nat} : bitLength n ≤ k ↔ n < Nat.pow 2 k := by
  by_cases h : n = 0
  · subst h
    exact iff_of_true (Nat.zero_le k) (Nat.pow_pos (by decide))
  · rw [bitLength, if_neg h, Nat.succ_le_iff]
    exact Nat.log2_lt h

variable (x : SignedMagnitude)

theorem one_le_minimalWidth : 1 ≤ x.minimalWidth := by
  rw [minimalWidth]
  split <;> omega

/-- **A width of at least one byte holds a value exactly if it is not below the least one.** -/
theorem minimalWidth_le_iff {w : Nat} (hw : 1 ≤ w) : x.minimalWidth ≤ w ↔ FitsWidth w x.value := by
  have hpos : ∀ k, 0 < Nat.pow 2 k := fun k => Nat.pow_pos (by decide)
  have hhalf := hpos (8 * w - 1)
  have hwhole := hpos (8 * w)
  rw [minimalWidth, FitsWidth, if_neg (Nat.ne_of_gt hw), value]
  cases x.negative with
  | true =>
    -- one bit is left for the sign, and `-2 ^ k` needs no more bits than `2 ^ k - 1`
    have hbits := @bitLength_le_iff (x.magnitude - 1) (8 * w - 1)
    rw [if_pos rfl, if_pos rfl]
    omega
  | false =>
    have hbits := @bitLength_le_iff x.magnitude (8 * w)
    rw [if_neg Bool.false_ne_true, if_neg Bool.false_ne_true]
    omega

/-- Every magnitude of 128 bits fits beside its sign in 17 bytes. -/
theorem minimalWidth_le : x.minimalWidth ≤ 17 :=
  (x.minimalWidth_le_iff (by decide)).mpr ((x.fits_iff 17).mp (by simp [fits]))

end SignedMagnitude

end ByteScript
