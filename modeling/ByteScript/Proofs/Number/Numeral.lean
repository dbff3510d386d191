import ByteScript.Number.Digits
import ByteScript.Number.BigEndian
import ByteScript.Proofs.Text.CharClass

/-!
# Numerals read back

Every printer of numbers writes a numeral of its radix, and the numeral denotes the number that
was printed.

* `digitValue_digitChar`, `digitValue_lt_ten_iff`, `digitValue_lt_sixteen_iff`: the digits;
* `isNumeral_toDigits`, **`valueOf_toDigits`**: positional notation in a radix up to 16;
* **`valueOf_hexBytes`**, **`valueOf_binaryBytes`**: the digits of byte strings denote the number
  that the bytes denote;
* `unsigned?_of_isNumeral`, `unsigned?_of_isNumeral_of_le`: readers accept the numerals of their
  range, with any leading zeros, and no other ones.
-/

namespace ByteScript

/-! ## Digits -/

theorem digitValue_digitChar {n : Nat} (h : n < 16) : digitValue n.digitChar = n := by
  have all : ∀ k : Fin 16, digitValue (Nat.digitChar k) = k := by decide
  exact all ⟨n, h⟩

theorem isHexDigit_digitChar {n : Nat} (h : n < 16) : isHexDigit n.digitChar = true := by
  have all : ∀ k : Fin 16, isHexDigit (Nat.digitChar k) = true := by decide
  exact all ⟨n, h⟩

theorem digitValue_lt_ten_iff {c : Char} : digitValue c < 10 ↔ c.isDigit = true := by
  unfold digitValue
  by_cases hd : c.isDigit = true
  · rw [if_pos hd]
    refine iff_of_true ?_ hd
    rw [isDigit_iff] at hd
    change c.toNat - 48 < 10
    omega
  · rw [if_neg hd]
    refine iff_of_false ?_ hd
    split
    · omega
    · split <;> omega

theorem digitValue_lt_sixteen_iff {c : Char} : digitValue c < 16 ↔ isHexDigit c = true := by
  by_cases hd : c.isDigit = true
  · have := digitValue_lt_ten_iff.mpr hd
    exact iff_of_true (by omega) (isHexDigit_of_isDigit hd)
  · unfold digitValue
    rw [if_neg hd, isHexDigit_iff]
    change (if c.isLower = true then c.toNat - 97 + 10
      else if c.isUpper = true then c.toNat - 65 + 10 else 36) < 16 ↔ _
    rw [isDigit_iff] at hd
    split
    · rename_i hl
      rw [isLower_iff] at hl
      omega
    · rename_i hl
      rw [isLower_iff] at hl
      split
      · rename_i hu
        rw [isUpper_iff] at hu
        omega
      · rename_i hu
        rw [isUpper_iff] at hu
        omega

/-! ## Positional notation -/

theorem isNumeral_toDigits {radix : Nat} (h₁ : 1 < radix) (h₂ : radix ≤ 16) (n : Nat) :
    IsNumeral radix (Nat.toDigits radix n) := by
  refine ⟨Nat.toDigits_ne_nil, ?_⟩
  induction n using Nat.strongRecOn with
  | ind n ih =>
    intro c hc
    rw [Nat.toDigits_eq_if h₁] at hc
    split at hc
    · rename_i hn
      rw [List.mem_singleton.mp hc, digitValue_digitChar (by omega)]
      exact hn
    · rename_i hn
      rcases List.mem_append.mp hc with hc | hc
      · exact ih (n / radix) (Nat.div_lt_self (by omega) h₁) c hc
      · have hr := Nat.mod_lt n (show radix > 0 by omega)
        rw [List.mem_singleton.mp hc, digitValue_digitChar (by omega)]
        exact hr

/-- **A number in positional notation denotes itself.** -/
theorem valueOf_toDigits {radix : Nat} (h₁ : 1 < radix) (h₂ : radix ≤ 16) (n : Nat) :
    valueOf radix (Nat.toDigits radix n) = n := by
  induction n using Nat.strongRecOn with
  | ind n ih =>
    rw [Nat.toDigits_eq_if h₁]
    split
    · rename_i hn
      simp [valueOf, digitValue_digitChar (show n < 16 by omega)]
    · rename_i hn
      have hr := Nat.mod_lt n (show radix > 0 by omega)
      rw [valueOf_append_singleton, ih (n / radix) (Nat.div_lt_self (by omega) h₁),
        digitValue_digitChar (by omega), Nat.mul_comm]
      exact Nat.div_add_mod n radix

theorem isNumeral_decimal (n : Nat) : IsNumeral 10 (decimal n) :=
  isNumeral_toDigits (by decide) (by decide) n

theorem valueOf_decimal (n : Nat) : valueOf 10 (decimal n) = n :=
  valueOf_toDigits (by decide) (by decide) n

theorem allDigits_decimal (n : Nat) : (decimal n).allDigits = true := by
  obtain ⟨hne, hd⟩ := isNumeral_decimal n
  simp only [Text.allDigits, Bool.and_eq_true, Bool.not_eq_true', List.isEmpty_eq_false_iff,
    List.all_eq_true]
  exact ⟨hne, fun c hc => digitValue_lt_ten_iff.mp (hd c hc)⟩

theorem isNumeral_of_allDigits {s : Text} (h : s.allDigits = true) : IsNumeral 10 s := by
  simp only [Text.allDigits, Bool.and_eq_true, Bool.not_eq_true', List.isEmpty_eq_false_iff,
    List.all_eq_true] at h
  exact ⟨h.1, fun c hc => digitValue_lt_ten_iff.mpr (h.2 c hc)⟩

/-! ## Readers -/

theorem withoutPlus_of_isNumeral {radix : Nat} (h : radix ≤ 36) {s : Text}
    (hs : IsNumeral radix s) : withoutPlus s = s := by
  unfold withoutPlus
  split
  · rename_i r
    have hp := hs.2 '+' List.mem_cons_self
    have : digitValue '+' = 36 := rfl
    omega
  · rfl

/-- **A reader accepts every numeral of its range.** -/
theorem unsigned?_of_isNumeral {bits radix : Nat} (h : radix ≤ 36) {s : Text}
    (hs : IsNumeral radix s) (hlt : valueOf radix s < Nat.pow 2 bits) :
    unsigned? bits radix s = some (valueOf radix s) := by
  unfold unsigned? natural?
  rw [withoutPlus_of_isNumeral h hs, if_pos hs]
  simp only [Option.filter_some, decide_eq_true hlt, if_true]

theorem unsigned?_of_isNumeral_of_le {bits radix : Nat} (h : radix ≤ 36) {s : Text}
    (hs : IsNumeral radix s) (hle : Nat.pow 2 bits ≤ valueOf radix s) :
    unsigned? bits radix s = none := by
  unfold unsigned? natural?
  rw [withoutPlus_of_isNumeral h hs, if_pos hs, Option.filter_some,
    decide_eq_false (Nat.not_lt.mpr hle)]
  rfl

theorem size?_of_allDigits {s : Text} (h : s.allDigits = true)
    (hlt : valueOf 10 s < Nat.pow 2 64) : size? s = some (valueOf 10 s) := by
  unfold size?
  rw [if_pos h]
  exact unsigned?_of_isNumeral (by decide) (isNumeral_of_allDigits h) hlt

/-- Digits of a number that 64 bits do not hold are no size. -/
theorem size?_of_allDigits_of_le {s : Text} (h : s.allDigits = true)
    (hle : Nat.pow 2 64 ≤ valueOf 10 s) : size? s = none := by
  unfold size?
  rw [if_pos h]
  exact unsigned?_of_isNumeral_of_le (by decide) (isNumeral_of_allDigits h) hle

theorem size?_decimal {n : Nat} (h : n < Nat.pow 2 64) : size? (decimal n) = some n := by
  have := size?_of_allDigits (allDigits_decimal n) (by rw [valueOf_decimal]; exact h)
  rwa [valueOf_decimal] at this

theorem size?_decimal_of_le {n : Nat} (h : Nat.pow 2 64 ≤ n) : size? (decimal n) = none :=
  size?_of_allDigits_of_le (allDigits_decimal n) (by rw [valueOf_decimal]; exact h)

/-! ## Digits of byte strings -/

theorem ofBigEndian_cons (b : UInt8) (bs : Bytes) :
    ofBigEndian (b :: bs) = b.toNat * Nat.pow 256 bs.length + ofBigEndian bs := by
  have general : ∀ (n : Nat) (bs : Bytes), bs.foldl (fun n b => n * 256 + b.toNat) n =
      n * Nat.pow 256 bs.length + ofBigEndian bs := by
    intro n bs
    induction bs generalizing n with
    | nil => simp [ofBigEndian]
    | cons b bs ih =>
      simp only [List.foldl_cons, ofBigEndian, List.length_cons, Nat.pow, Nat.mul_eq]
      rw [ih, ih (0 * 256 + b.toNat), Nat.add_mul, Nat.zero_mul, Nat.zero_add, Nat.mul_assoc,
        Nat.mul_comm 256, Nat.add_assoc]
  rw [ofBigEndian, List.foldl_cons, general, Nat.zero_mul, Nat.zero_add]

theorem byte_lt (b : UInt8) : b.toNat < 256 := b.toNat_lt

theorem valueOf_hexByte (b : UInt8) : valueOf 16 (hexByte b) = b.toNat := by
  have hb := byte_lt b
  simp only [valueOf, hexByte, List.foldl_cons, List.foldl_nil]
  rw [digitValue_digitChar (by omega), digitValue_digitChar (by omega)]
  omega

theorem isHexDigit_of_mem_hexBytes {bs : Bytes} {c : Char} (h : c ∈ hexBytes bs) :
    isHexDigit c = true := by
  obtain ⟨b, _, hc⟩ := List.mem_flatMap.mp h
  have hb := byte_lt b
  simp only [hexByte, List.mem_cons, List.not_mem_nil, or_false] at hc
  rcases hc with rfl | rfl
  · exact isHexDigit_digitChar (by omega)
  · exact isHexDigit_digitChar (by omega)

/-- **The hexadecimal digits of bytes denote the number that the bytes denote.** -/
theorem valueOf_hexBytes (bs : Bytes) : valueOf 16 (hexBytes bs) = ofBigEndian bs := by
  induction bs with
  | nil => rfl
  | cons b bs ih =>
    have hp : Nat.pow 16 (2 * bs.length) = Nat.pow 256 bs.length := Nat.pow_mul 16 2 bs.length
    have hc : hexBytes (b :: bs) = hexByte b ++ hexBytes bs := rfl
    rw [hc, valueOf_append, ih, valueOf_hexByte, length_hexBytes, ofBigEndian_cons]
    show _ * Nat.pow 16 (2 * bs.length) + _ = _
    rw [hp]

theorem isNumeral_hexBytes {bs : Bytes} (h : bs ≠ []) : IsNumeral 16 (hexBytes bs) := by
  refine ⟨?_, fun c hc => digitValue_lt_sixteen_iff.mpr (isHexDigit_of_mem_hexBytes hc)⟩
  intro hn
  have := length_hexBytes bs
  rw [hn, List.length_nil] at this
  exact h (List.eq_nil_of_length_eq_zero (by omega))

theorem length_binaryBytes (bs : Bytes) : (binaryBytes bs).length = 8 * bs.length := by
  induction bs with
  | nil => rfl
  | cons b bs ih =>
    have hc : binaryBytes (b :: bs) = binaryByte b ++ binaryBytes bs := rfl
    have hb : (binaryByte b).length = 8 := rfl
    rw [hc, List.length_append, ih, hb, List.length_cons]
    omega

theorem valueOf_binaryByte (b : UInt8) : valueOf 2 (binaryByte b) = b.toNat := by
  have all : ∀ k : Fin 256, valueOf 2 (binaryByte (UInt8.ofNat k)) = k := by decide +kernel
  have := all ⟨b.toNat, byte_lt b⟩
  rwa [UInt8.ofNat_toNat] at this

theorem binary_digit_of_mem_binaryBytes {bs : Bytes} {c : Char} (h : c ∈ binaryBytes bs) :
    c = '0' ∨ c = '1' := by
  obtain ⟨b, _, hc⟩ := List.mem_flatMap.mp h
  obtain ⟨w, _, rfl⟩ := List.mem_map.mp hc
  rcases Nat.mod_two_eq_zero_or_one (b.toNat / w) with hw | hw
  · left; rw [hw]; rfl
  · right; rw [hw]; rfl

/-- **The binary digits of bytes denote the number that the bytes denote.** -/
theorem valueOf_binaryBytes (bs : Bytes) : valueOf 2 (binaryBytes bs) = ofBigEndian bs := by
  induction bs with
  | nil => rfl
  | cons b bs ih =>
    have hp : Nat.pow 2 (8 * bs.length) = Nat.pow 256 bs.length := Nat.pow_mul 2 8 bs.length
    have hc : binaryBytes (b :: bs) = binaryByte b ++ binaryBytes bs := rfl
    rw [hc, valueOf_append, ih, valueOf_binaryByte, length_binaryBytes, ofBigEndian_cons]
    show _ * Nat.pow 2 (8 * bs.length) + _ = _
    rw [hp]

theorem isNumeral_binaryBytes {bs : Bytes} (h : bs ≠ []) : IsNumeral 2 (binaryBytes bs) := by
  refine ⟨?_, fun c hc => ?_⟩
  · intro hn
    have := length_binaryBytes bs
    rw [hn, List.length_nil] at this
    exact h (List.eq_nil_of_length_eq_zero (by omega))
  · rcases binary_digit_of_mem_binaryBytes hc with rfl | rfl <;> decide

end ByteScript
