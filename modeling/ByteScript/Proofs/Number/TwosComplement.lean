import ByteScript.Number.SignedMagnitude
import ByteScript.Proofs.Number.Numeral

/-!
# Two's complement at every width

The bytes of an integer literal at a width are the big-endian form of its value modulo
`256 ^ width`, and reading a field and writing its value at the width of the field gives the bytes
of the field back.

* `eq_bigEndian`: bytes are determined by their number and the number that they denote;
* `FitsWidth`, **`SignedMagnitude.fits_iff`**: the values that a width holds;
* `SignedMagnitude.IsCanonical`, **`SignedMagnitude.toBytes?_eq`**: the bytes of a value at a width;
* `wordValue_emod`, `wordValue_of_signedValue?`: the signed reading of a field of any width;
* **`toBytes?_of_signedValue?`**, **`toBytes?_of_ofBigEndian`**: writing inverts reading;
* `SignedMagnitude.exists_read?_value`, `SignedMagnitude.read?_of_le`: the literal of a numeral.
-/

namespace ByteScript

/-! ## Bytes and the numbers they denote -/

theorem eq_bigEndian {bs : Bytes} {w n : Nat} (hl : bs.length = w) (hn : ofBigEndian bs = n) :
    bs = bigEndian w n := by
  rw [← hl, ← hn, bigEndian_ofBigEndian]

theorem ofBigEndian_append (bs cs : Bytes) :
    ofBigEndian (bs ++ cs) = ofBigEndian bs * Nat.pow 256 cs.length + ofBigEndian cs := by
  induction bs with
  | nil => simp [ofBigEndian]
  | cons b bs ih =>
    have hp : Nat.pow 256 (bs.length + cs.length) =
        Nat.pow 256 bs.length * Nat.pow 256 cs.length := Nat.pow_add 256 _ _
    rw [List.cons_append, ofBigEndian_cons, ofBigEndian_cons, ih, List.length_append, hp,
      Nat.add_mul, Nat.mul_assoc, Nat.add_assoc]

theorem ofBigEndian_replicate_zero (k : Nat) : ofBigEndian (List.replicate k 0) = 0 := by
  induction k with
  | zero => rfl
  | succ k ih => rw [List.replicate_succ, ofBigEndian_cons, ih]; simp

theorem ofBigEndian_replicate_ones (k : Nat) :
    ofBigEndian (List.replicate k 0xff) + 1 = Nat.pow 256 k := by
  induction k with
  | zero => rfl
  | succ k ih =>
    have hp : Nat.pow 256 (k + 1) = Nat.pow 256 k * 256 := rfl
    have hb : (0xff : UInt8).toNat = 255 := rfl
    rw [List.replicate_succ, ofBigEndian_cons, List.length_replicate, hp, hb]
    omega

theorem pow_two_eq_pow_256 (w : Nat) : Nat.pow 2 (8 * w) = Nat.pow 256 w := Nat.pow_mul 2 8 w

theorem pow_256_dvd {w : Nat} (h : w ≤ 16) : Nat.pow 256 w ∣ Nat.pow 2 128 :=
  Nat.pow_dvd_pow 256 h

theorem pow_256_pos (w : Nat) : 0 < Nat.pow 256 w := Nat.pow_pos (by decide)

/-! ## Writing -/

/-- A number that `w` bytes hold, unsigned or in two's complement; no byte holds zero only. -/
def FitsWidth (w : Nat) (v : Int) : Prop :=
  if w = 0 then v = 0
  else -(Nat.pow 2 (8 * w - 1) : Int) ≤ v ∧ v < (Nat.pow 2 (8 * w) : Nat)

instance (w : Nat) (v : Int) : Decidable (FitsWidth w v) :=
  inferInstanceAs (Decidable (if w = 0 then v = 0
    else -(Nat.pow 2 (8 * w - 1) : Int) ≤ v ∧ v < (Nat.pow 2 (8 * w) : Nat)))

theorem fitsWidth_zero (w : Nat) : FitsWidth w 0 := by
  have hpos : 0 < Nat.pow 2 (8 * w) := Nat.pow_pos (by decide)
  unfold FitsWidth
  split <;> omega

/-- Bytes denote an unsigned number that their width holds. -/
theorem fitsWidth_ofBigEndian (bs : Bytes) : FitsWidth bs.length (ofBigEndian bs) := by
  have hlt := ofBigEndian_lt bs
  rw [FitsWidth, pow_two_eq_pow_256]
  split
  · rename_i h0
    rw [h0] at hlt
    exact congrArg Nat.cast (Nat.lt_one_iff.mp hlt)
  · omega

namespace SignedMagnitude

/-- Zero has no sign. -/
def IsCanonical (x : SignedMagnitude) : Prop := x.negative = true → x.magnitude ≠ 0

/-- The bytes of a literal before they are cut off at a width denote its value modulo the width. -/
theorem ofBigEndian_word {x : SignedMagnitude} (hx : x.IsCanonical) (w : Nat) :
    (ofBigEndian (List.replicate (w - 16) x.fill ++ bigEndian (min w 16) x.word) : Int) =
      x.value % (Nat.pow 256 w : Nat) := by
  have hm := x.magnitude_lt
  by_cases hw : w ≤ 16
  · obtain ⟨k, hk⟩ := pow_256_dvd hw
    have hp := pow_256_pos w
    rw [Nat.sub_eq_zero_of_le hw, Nat.min_eq_left hw, List.replicate_zero, List.nil_append,
      ofBigEndian_bigEndian, Int.natCast_emod, word, value]
    cases x.negative with
    | false => simp
    | true =>
      simp only [if_true]
      rw [Int.ofNat_sub (by omega), hk, Int.natCast_mul, Int.sub_eq_add_neg, Int.add_comm,
        Int.add_mul_emod_self_left]
  · have hw' : 16 ≤ w := by omega
    have hp : Nat.pow 256 w = Nat.pow 256 (w - 16) * Nat.pow 2 128 := by
      have := Nat.pow_add 256 (w - 16) 16
      rwa [Nat.sub_add_cancel hw'] at this
    have h16 : Nat.pow 256 16 = Nat.pow 2 128 := by decide
    have hq := pow_256_pos (w - 16)
    rw [Nat.min_eq_right hw', ofBigEndian_append, ofBigEndian_bigEndian, length_bigEndian, h16, hp,
      word, value, fill]
    have hle := Nat.mul_le_mul_right (Nat.pow 2 128) hq
    rw [Nat.succ_mul, Nat.zero_mul, Nat.zero_add] at hle
    cases hs : x.negative with
    | false =>
      rw [if_neg (by decide), if_neg (by decide), if_neg (by decide), ofBigEndian_replicate_zero,
        Nat.zero_mul, Nat.zero_add, Nat.mod_eq_of_lt hm]
      rw [Int.emod_eq_of_lt (by omega) (by omega)]
    | true =>
      have hne := hx hs
      have h1 := ofBigEndian_replicate_ones (w - 16)
      rw [if_pos rfl, if_pos rfl, if_pos rfl, Nat.mod_eq_of_lt (by omega), ← h1, Nat.add_mul,
        Nat.one_mul]
      generalize ofBigEndian (List.replicate (w - 16) 0xff) * Nat.pow 2 128 = a
      rw [← Int.add_emod_right, Int.emod_eq_of_lt (by omega) (by omega)]
      omega

/-- **The bytes of a value that fits are its big-endian form modulo the width.** -/
theorem toBytes?_of_fits {x : SignedMagnitude} (hx : x.IsCanonical) {w : Nat}
    (h : x.fits w = true) :
    x.toBytes? w = some (bigEndian w (x.value % (Nat.pow 256 w : Nat)).toNat) := by
  rw [toBytes?, if_pos h]
  refine congrArg some (eq_bigEndian ?_ ?_)
  · rw [List.length_append, List.length_replicate, length_bigEndian]
    omega
  · rw [← ofBigEndian_word hx, Int.toNat_natCast]

/-- **A value is written at the widths that hold it.** -/
theorem fits_iff (x : SignedMagnitude) (w : Nat) : x.fits w = true ↔ FitsWidth w x.value := by
  have hm := x.magnitude_lt
  rw [fits, FitsWidth, Bool.or_eq_true, decide_eq_true_eq]
  by_cases h0 : w = 0
  · rw [if_pos h0, if_pos h0, decide_eq_true_eq, value]
    split <;> omega
  · rw [if_neg h0, if_neg h0]
    have hpos : 0 < Nat.pow 2 (8 * w) := Nat.pow_pos (by decide)
    have hwide : 16 < w →
        Nat.pow 2 128 ≤ Nat.pow 2 (8 * w - 1) ∧ Nat.pow 2 128 ≤ Nat.pow 2 (8 * w) := fun h =>
      ⟨Nat.pow_le_pow_right (by decide) (by omega), Nat.pow_le_pow_right (by decide) (by omega)⟩
    rw [value]
    cases x.negative with
    | true =>
      rw [if_pos rfl, if_pos rfl, decide_eq_true_eq]
      omega
    | false =>
      rw [if_neg Bool.false_ne_true, if_neg Bool.false_ne_true, decide_eq_true_eq]
      omega

/-- **The bytes of a value at a width** are its big-endian form modulo the width, if the width holds
it. -/
theorem toBytes?_eq {x : SignedMagnitude} (hx : x.IsCanonical) (w : Nat) :
    x.toBytes? w = if FitsWidth w x.value
      then some (bigEndian w (x.value % (Nat.pow 2 (8 * w) : Nat)).toNat) else none := by
  split
  · rename_i h
    rw [toBytes?_of_fits hx ((x.fits_iff w).mpr h), pow_two_eq_pow_256]
  · rename_i h
    exact if_neg fun hfits => h ((x.fits_iff w).mp hfits)

end SignedMagnitude

/-! ## Reading -/

theorem wordValue_emod (bs : Bytes) :
    wordValue bs % (Nat.pow 256 bs.length : Nat) = ofBigEndian bs := by
  have hlt := ofBigEndian_lt bs
  rw [wordValue]
  split
  · rw [← Int.add_emod_right, Int.sub_add_cancel, Int.emod_eq_of_lt (by omega) (by omega)]
  · rw [Int.emod_eq_of_lt (by omega) (by omega)]

theorem leadingBit_iff (bs : Bytes) :
    leadingBit bs = true ↔ bs ≠ [] ∧ Nat.pow 256 bs.length ≤ 2 * ofBigEndian bs := by
  cases bs with
  | nil => simp [leadingBit]
  | cons b bs =>
    have hp : Nat.pow 256 (bs.length + 1) = Nat.pow 256 bs.length * 256 := rfl
    have hlt := ofBigEndian_lt bs
    rw [leadingBit, decide_eq_true_eq, ofBigEndian_cons, List.length_cons, hp]
    refine ⟨fun h => ⟨List.cons_ne_nil _ _, ?_⟩, fun h => ?_⟩
    · have := Nat.mul_le_mul_right (Nat.pow 256 bs.length) h
      omega
    · rcases Nat.lt_or_ge b.toNat 128 with hb | hb
      · have := Nat.mul_le_mul_right (Nat.pow 256 bs.length) (show b.toNat ≤ 127 by omega)
        omega
      · exact hb

theorem wordValue_bounds (bs : Bytes) (h : bs ≠ []) :
    -(Nat.pow 256 bs.length : Int) ≤ 2 * wordValue bs ∧
      2 * wordValue bs < (Nat.pow 256 bs.length : Nat) := by
  have hlt := ofBigEndian_lt bs
  have hl := leadingBit_iff bs
  rw [wordValue]
  split
  · rename_i hb
    have := (hl.mp hb).2
    omega
  · rename_i hb
    have : ¬ Nat.pow 256 bs.length ≤ 2 * ofBigEndian bs := fun hle => hb (hl.mpr ⟨h, hle⟩)
    omega

/-- Bytes denote a signed number that their width holds. -/
theorem fitsWidth_wordValue (bs : Bytes) : FitsWidth bs.length (wordValue bs) := by
  by_cases hn : bs = []
  · subst hn
    exact fitsWidth_zero 0
  · have hb := wordValue_bounds bs hn
    have hpos := List.length_pos_iff.mpr hn
    have hp := pow_two_eq_pow_256 bs.length
    have h2 : Nat.pow 2 (8 * bs.length) = Nat.pow 2 (8 * bs.length - 1) * 2 := by
      rw [show 8 * bs.length = 8 * bs.length - 1 + 1 by omega]
      rfl
    rw [FitsWidth, if_neg (by omega)]
    omega

theorem wordValue_replicate_append {k : Nat} {word : Bytes} (b : Bool)
    (hb : leadingBit word = b)
    (hl : leadingBit (List.replicate k (if b then 0xff else 0) ++ word) = b) :
    wordValue (List.replicate k (if b then 0xff else 0) ++ word) = wordValue word := by
  rw [wordValue, wordValue, hb, hl, ofBigEndian_append, List.length_append, List.length_replicate]
  have hp : Nat.pow 256 (k + word.length) = Nat.pow 256 k * Nat.pow 256 word.length :=
    Nat.pow_add 256 _ _
  cases b with
  | false => simp [ofBigEndian_replicate_zero]
  | true =>
    have h1 := ofBigEndian_replicate_ones k
    simp only [if_true]
    rw [hp, ← h1, Nat.add_mul, Nat.one_mul]
    omega

/-- **The signed value of a field in 128 bits is its two's-complement value.** -/
theorem wordValue_of_signedValue? {bs : Bytes} {v : Int} (h : signedValue? bs = some v) :
    wordValue bs = v := by
  rw [signedValue?] at h
  simp only [Bool.and_eq_true, List.all_eq_true, beq_iff_eq] at h
  split at h
  · rename_i hc
    obtain ⟨hall, hlead⟩ := hc
    obtain rfl := Option.some.inj h
    have hrep : bs.take (bs.length - 16) = List.replicate (bs.take (bs.length - 16)).length
        (if leadingBit bs then 0xff else 0) := List.eq_replicate_iff.mpr ⟨rfl, hall⟩
    have hsplit := List.take_append_drop (bs.length - 16) bs
    rw [hrep] at hsplit
    have := wordValue_replicate_append (leadingBit bs) hlead (by rw [hsplit])
    rwa [hsplit] at this
  · cases h

theorem signedValue?_bounds {bs : Bytes} {v : Int} (h : signedValue? bs = some v) :
    -(Nat.pow 2 127 : Int) ≤ v ∧ v < (Nat.pow 2 127 : Nat) := by
  rw [signedValue?] at h
  split at h
  · obtain rfl := Option.some.inj h
    generalize hword : bs.drop (bs.length - 16) = word
    have hlen : word.length ≤ 16 := by
      rw [← hword, List.length_drop]
      omega
    have h128 : Nat.pow 2 128 = 2 * Nat.pow 2 127 := by decide
    by_cases hn : word = []
    · subst hn
      have h0 : wordValue [] = 0 := rfl
      have hp : 0 < Nat.pow 2 127 := by decide
      omega
    · have := wordValue_bounds word hn
      have hle : Nat.pow 256 word.length ≤ Nat.pow 2 128 :=
        Nat.le_of_dvd (by decide) (pow_256_dvd hlen)
      omega
  · cases h

theorem natAbs_lt_of_signedValue? {bs : Bytes} {v : Int} (h : signedValue? bs = some v) :
    v.natAbs < Nat.pow 2 128 := by
  have hbounds := signedValue?_bounds h
  have hp : Nat.pow 2 128 = Nat.pow 2 127 * 2 := by decide
  rw [hp]
  generalize Nat.pow 2 127 = p at hbounds
  omega

/-! ## Writing what was read -/

/-- **Writing the signed value of a field at the width of the field gives the field back.** -/
theorem toBytes?_of_signedValue? {bs : Bytes} {v : Int} {x : SignedMagnitude}
    (h : signedValue? bs = some v) (hx : x.IsCanonical) (hv : x.value = v) :
    x.toBytes? bs.length = some bs := by
  rw [SignedMagnitude.toBytes?_eq hx, hv, ← wordValue_of_signedValue? h,
    if_pos (fitsWidth_wordValue bs), pow_two_eq_pow_256, wordValue_emod, Int.toNat_natCast,
    bigEndian_ofBigEndian]

/-- **Writing the unsigned value of a field at the width of the field gives the field back.** -/
theorem toBytes?_of_ofBigEndian {bs : Bytes} {x : SignedMagnitude} (hneg : x.negative = false)
    (hm : x.magnitude = ofBigEndian bs) : x.toBytes? bs.length = some bs := by
  have hlt := ofBigEndian_lt bs
  have hx : x.IsCanonical := fun h => by rw [hneg] at h; cases h
  have hv : x.value = ofBigEndian bs := by rw [SignedMagnitude.value, hneg, hm]; rfl
  rw [SignedMagnitude.toBytes?_eq hx, hv, if_pos (fitsWidth_ofBigEndian bs), pow_two_eq_pow_256,
    Int.emod_eq_of_lt (by omega) (by omega), Int.toNat_natCast, bigEndian_ofBigEndian]

/-! ## Literals -/

/-- **The literal of a numeral in range has its value.** -/
theorem SignedMagnitude.read?_of_isNumeral {radix : Nat} (h : radix ≤ 36) {s : Text}
    (hs : IsNumeral radix s) (hlt : valueOf radix s < Nat.pow 2 128) (negative : Bool) :
    ∃ x, SignedMagnitude.read? radix s negative = some x ∧ x.IsCanonical ∧
      x.negative = (negative && valueOf radix s != 0) ∧ x.magnitude = valueOf radix s := by
  have hu := unsigned?_of_isNumeral h hs hlt
  have hread : SignedMagnitude.read? radix s negative =
      some ⟨negative && valueOf radix s != 0, valueOf radix s, hlt⟩ := by
    rw [SignedMagnitude.read?]
    split
    · rename_i hn
      rw [hu] at hn
      cases hn
    · rename_i m hm
      rw [hu] at hm
      obtain rfl := Option.some.inj hm
      rfl
  refine ⟨_, hread, fun hneg => ?_, rfl, rfl⟩
  simp only [Bool.and_eq_true, bne_iff_ne] at hneg
  exact hneg.2

/-- It stands for the number of its digits with its sign. -/
theorem SignedMagnitude.exists_read?_value {radix : Nat} (h : radix ≤ 36) {s : Text}
    (hs : IsNumeral radix s) (hlt : valueOf radix s < Nat.pow 2 128) (negative : Bool) :
    ∃ x, SignedMagnitude.read? radix s negative = some x ∧ x.IsCanonical ∧
      x.value = if negative then -(valueOf radix s : Int) else valueOf radix s := by
  obtain ⟨x, hread, hcan, hneg, hmag⟩ := read?_of_isNumeral h hs hlt negative
  refine ⟨x, hread, hcan, ?_⟩
  rw [value, hneg, hmag]
  cases negative with
  | false => rfl
  | true =>
    rw [Bool.true_and, if_pos rfl]
    split
    · rfl
    · rename_i hzero
      have : valueOf radix s = 0 := by simpa using hzero
      omega

/-- A numeral out of range is no literal. -/
theorem SignedMagnitude.read?_of_le {radix : Nat} (h : radix ≤ 36) {s : Text}
    (hs : IsNumeral radix s) (hle : Nat.pow 2 128 ≤ valueOf radix s) (negative : Bool) :
    SignedMagnitude.read? radix s negative = none := by
  have hu := unsigned?_of_isNumeral_of_le h hs hle
  rw [SignedMagnitude.read?]
  split
  · rfl
  · rename_i m hm
    rw [hu] at hm
    cases hm

end ByteScript
