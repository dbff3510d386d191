import ByteScript.Proofs.Number.TwosComplement

/-!
# The signed value of a field

The signed reading of a field gives its two's-complement value and refuses nothing but values beyond
128 bits, at every width, so writing what was read gives the field back.

* `twosComplement`, `wordValue_eq_twosComplement`: the number that bytes denote in two's complement;
* `sign_extension`, **`signedValue?_of_bounds`**: a field of any width has a signed value in the
  range of 128 bits;
* **`signedValue?_exact`**: the reading is exact, and writing inverts it.
-/

namespace ByteScript

/-! ## Which fields have a signed value -/

/-- The number that bytes denote in two's complement: the residue of the unsigned one modulo
`256 ^ length`, from minus half of the modulus up to less than half of it. -/
def twosComplement (bs : Bytes) : Int := Int.bmod (ofBigEndian bs) (Nat.pow 256 bs.length)

theorem wordValue_eq_twosComplement (bs : Bytes) : wordValue bs = twosComplement bs := by
  have hlt := ofBigEndian_lt bs
  have hmod : (ofBigEndian bs : Int) % (Nat.pow 256 bs.length : Nat) = ofBigEndian bs :=
    Int.emod_eq_of_lt (by omega) (by omega)
  rw [twosComplement, Int.bmod_def, hmod, wordValue]
  cases bs with
  | nil => rfl
  | cons b bs =>
    have hlead := leadingBit_iff (b :: bs)
    have heven : Nat.pow 256 (b :: bs).length = Nat.pow 256 bs.length * 256 := rfl
    by_cases hb : leadingBit (b :: bs) = true
    · have := (hlead.mp hb).2
      rw [if_pos hb, if_neg (by omega)]
    · have : ¬ Nat.pow 256 (b :: bs).length ≤ 2 * ofBigEndian (b :: bs) :=
        fun h => hb (hlead.mpr ⟨List.cons_ne_nil _ _, h⟩)
      rw [if_neg hb, if_pos (by omega)]

theorem eq_of_ofBigEndian_eq {bs cs : Bytes} (hlength : bs.length = cs.length)
    (h : ofBigEndian bs = ofBigEndian cs) : bs = cs := by
  rw [eq_bigEndian hlength h, bigEndian_ofBigEndian]

/-- A field that is wider than its value in 128 bits repeats the sign in the bytes in front. -/
theorem sign_extension {extra word : Bytes} (hword : word.length = 16)
    (hlow : -(Nat.pow 2 127 : Int) ≤ wordValue (extra ++ word))
    (hhigh : wordValue (extra ++ word) < (Nat.pow 2 127 : Nat)) :
    extra = List.replicate extra.length (signByte (extra ++ word)) ∧
      leadingBit word = leadingBit (extra ++ word) := by
  have h16 : Nat.pow 256 16 = Nat.pow 2 127 * 2 := by decide
  have hsplit := ofBigEndian_append extra word
  have hpow : Nat.pow 256 (extra.length + 16) = Nat.pow 256 extra.length * Nat.pow 256 16 :=
    Nat.pow_add 256 _ _
  have hextra := ofBigEndian_lt extra
  have hlt := ofBigEndian_lt word
  have hlead := leadingBit_iff word
  have hne : word ≠ [] := List.length_pos_iff.mp (by omega)
  rw [hword, h16] at hsplit hlt hlead
  rw [wordValue, List.length_append, hword, hpow, h16, hsplit] at hlow hhigh
  rw [signByte]
  by_cases hb : leadingBit (extra ++ word) = true
  · -- The number of the extra bytes is the greatest of its width.
    have hones := ofBigEndian_replicate_ones extra.length
    rw [if_pos hb] at hlow
    have hmax : ofBigEndian extra = ofBigEndian (List.replicate extra.length 0xff) := by
      rcases Nat.lt_or_ge (Nat.pow 256 extra.length) (ofBigEndian extra + 2) with h | h
      · omega
      · have := Nat.mul_le_mul_right (Nat.pow 2 127 * 2) h
        rw [Nat.add_mul] at this
        omega
    rw [hmax, ← hones, Nat.add_mul] at hlow
    rw [if_pos hb, hb]
    exact ⟨eq_of_ofBigEndian_eq List.length_replicate.symm hmax, hlead.mpr ⟨hne, by omega⟩⟩
  · rw [if_neg hb] at hhigh
    have hzero : ofBigEndian extra = 0 := by
      rcases Nat.eq_zero_or_pos (ofBigEndian extra) with h | h
      · exact h
      · have := Nat.mul_le_mul_right (Nat.pow 2 127 * 2) h
        omega
    rw [hzero] at hhigh
    rw [if_neg hb, Bool.eq_false_iff.mpr hb, Bool.eq_false_iff]
    refine ⟨eq_of_ofBigEndian_eq List.length_replicate.symm ?_, fun h => ?_⟩
    · rw [hzero, ofBigEndian_replicate_zero]
    · have := (hlead.mp h).2
      omega

/-- **A field of any width has a signed value if its two's-complement value is one of 128 bits.** -/
theorem signedValue?_of_bounds {bs : Bytes} (hlow : -(Nat.pow 2 127 : Int) ≤ wordValue bs)
    (hhigh : wordValue bs < (Nat.pow 2 127 : Nat)) : signedValue? bs = some (wordValue bs) := by
  rcases Nat.lt_or_ge 16 bs.length with hl | hl
  · have hsplit := List.take_append_drop (bs.length - 16) bs
    have hword : (bs.drop (bs.length - 16)).length = 16 := by
      rw [List.length_drop]
      omega
    rw [← hsplit] at hlow hhigh
    obtain ⟨hextra, hlead⟩ := sign_extension hword hlow hhigh
    rw [hsplit] at hextra hlead
    have hsome : signedValue? bs = some (wordValue (bs.drop (bs.length - 16))) := by
      rw [signedValue?]
      refine if_pos (Bool.and_eq_true _ _ ▸ ⟨List.all_eq_true.mpr fun b hb => ?_, ?_⟩)
      · exact beq_iff_eq.mpr (List.eq_replicate_iff.mp hextra |>.2 b hb)
      · exact beq_iff_eq.mpr hlead
    rw [hsome, wordValue_of_signedValue? hsome]
  · rw [signedValue?, Nat.sub_eq_zero_of_le hl]
    exact if_pos (by simp)

/-- A sign and a magnitude stand for the number that they are taken from. -/
theorem SignedMagnitude.value_of_parts {x : SignedMagnitude} {v : Int}
    (hneg : x.negative = decide (v < 0)) (hmag : x.magnitude = v.natAbs) :
    x.IsCanonical ∧ x.value = v := by
  simp only [IsCanonical, value, hneg, hmag, decide_eq_true_eq]
  refine ⟨fun h => by omega, ?_⟩
  split <;> omega

/-- **The signed reading is exact and inverted by writing**: a field of any width has the signed
value `v` if and only if its two's-complement value is one of 128 bits and equal to `v`, and then the
sign and the magnitude of `v` are written at the width of the field as the field. So is the unsigned
value of a field of at most 16 bytes. -/
theorem signedValue?_exact (bs : Bytes) (v : Int) :
    (signedValue? bs = some v ↔
      (-(Nat.pow 2 127 : Int) ≤ twosComplement bs ∧ twosComplement bs < (Nat.pow 2 127 : Nat)) ∧
        twosComplement bs = v) ∧
    (signedValue? bs = some v → ∃ x : SignedMagnitude,
      x.negative = decide (v < 0) ∧ x.magnitude = v.natAbs ∧ x.toBytes? bs.length = some bs) ∧
    (bs.length ≤ 16 → ∃ x : SignedMagnitude,
      x.negative = false ∧ unsignedValue? bs = some x.magnitude ∧
        x.toBytes? bs.length = some bs) := by
  rw [← wordValue_eq_twosComplement]
  refine ⟨⟨fun h => ?_, fun ⟨hbounds, hv⟩ => ?_⟩, fun h => ?_, fun hl => ?_⟩
  · obtain rfl := wordValue_of_signedValue? h
    exact ⟨signedValue?_bounds h, rfl⟩
  · rw [signedValue?_of_bounds hbounds.1 hbounds.2, hv]
  · let x : SignedMagnitude := ⟨decide (v < 0), v.natAbs, natAbs_lt_of_signedValue? h⟩
    obtain ⟨hcan, hvalue⟩ := @SignedMagnitude.value_of_parts x v rfl rfl
    exact ⟨x, rfl, rfl, toBytes?_of_signedValue? h hcan hvalue⟩
  · have hlt : ofBigEndian bs < Nat.pow 2 128 :=
      Nat.lt_of_lt_of_le (ofBigEndian_lt bs) (Nat.le_of_dvd (by decide) (pow_256_dvd hl))
    exact ⟨⟨false, ofBigEndian bs, hlt⟩, rfl, if_pos hl, toBytes?_of_ofBigEndian rfl rfl⟩

/-- The least number of 128 bits in a field of 18 bytes, and the greatest number in one of 16. -/
theorem signedValue?_exact_extremes :
    let least : Bytes := 0xff :: 0xff :: 0x80 :: List.replicate 15 0
    let greatest : Bytes := List.replicate 16 0xff
    (∃ x : SignedMagnitude, x.negative = true ∧ x.magnitude = Nat.pow 2 127 ∧
      x.toBytes? 18 = some least) ∧
    ∃ x : SignedMagnitude, x.negative = false ∧ unsignedValue? greatest = some x.magnitude ∧
      x.toBytes? 16 = some greatest := by
  intro least greatest
  refine ⟨?_, (signedValue?_exact greatest (-1)).2.2 (by decide)⟩
  obtain ⟨x, hneg, hmag, hbytes⟩ :=
    (signedValue?_exact least (-(Nat.pow 2 127 : Int))).2.1 (by decide +kernel)
  exact ⟨x, hneg.trans (by decide), hmag.trans (by decide), hbytes⟩

end ByteScript
