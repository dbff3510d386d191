import ByteScript.Text.Basic

/-!
# Numerals

Reading and printing of numbers in a radix up to 36.

* `digitValue`, `IsNumeral`, `valueOf`: the digits, the digit strings and the number that one
  denotes;
* `natural?`, `unsigned?`, `integer?`: readers that refuse what is no numeral of their range;
* `decimal`, `hexadecimal`, `hexByte`, `binaryByte`: printers;
* `valueOf_append`, `valueOf_lt`: a numeral is read digit by digit.
-/

namespace ByteScript

/-! ## Digits -/

/-- The value of a digit, letters of either case counting from ten; 36 for any other character. -/
def digitValue (c : Char) : Nat :=
  if c.isDigit then c.toNat - '0'.toNat
  else if c.isLower then c.toNat - 'a'.toNat + 10
  else if c.isUpper then c.toNat - 'A'.toNat + 10
  else 36

/-- A nonempty string of digits below `radix`. -/
def IsNumeral (radix : Nat) (s : Text) : Prop := s ≠ [] ∧ ∀ c ∈ s, digitValue c < radix

instance (radix : Nat) (s : Text) : Decidable (IsNumeral radix s) :=
  @instDecidableAnd (¬ s = []) _ _ (List.decidableBAll (fun c => digitValue c < radix) s)

/-- The number that a digit string denotes. -/
def valueOf (radix : Nat) (s : Text) : Nat := s.foldl (fun n c => n * radix + digitValue c) 0

theorem valueOf_append_singleton (radix : Nat) (s : Text) (c : Char) :
    valueOf radix (s ++ [c]) = valueOf radix s * radix + digitValue c := by
  simp [valueOf, List.foldl_append]

theorem foldl_digits (radix n : Nat) (s : Text) :
    s.foldl (fun n c => n * radix + digitValue c) n = n * radix.pow s.length + valueOf radix s := by
  induction s generalizing n with
  | nil => simp [valueOf]
  | cons c s ih =>
    simp only [List.foldl_cons, valueOf, List.length_cons, Nat.pow, Nat.mul_eq]
    rw [ih, ih (0 * radix + digitValue c)]
    simp only [Nat.add_mul, Nat.mul_assoc, Nat.mul_comm radix, Nat.zero_mul, Nat.zero_add,
      Nat.add_assoc]

theorem valueOf_append (radix : Nat) (s t : Text) :
    valueOf radix (s ++ t) = valueOf radix s * radix.pow t.length + valueOf radix t := by
  rw [valueOf, List.foldl_append, foldl_digits]; rfl

/-- **A numeral of `k` digits is below the `k`-th power of its radix.** -/
theorem valueOf_lt {radix : Nat} {s : Text} (h : ∀ c ∈ s, digitValue c < radix) :
    valueOf radix s < radix.pow s.length := by
  induction s with
  | nil => simp [valueOf]
  | cons c s ih =>
    have hs := ih fun d hd => h d (List.mem_cons_of_mem _ hd)
    have hc := h c List.mem_cons_self
    have e := valueOf_append radix [c] s
    rw [List.singleton_append] at e
    rw [e, List.length_cons, Nat.pow, Nat.mul_eq, Nat.mul_comm _ radix]
    have hv : valueOf radix [c] = digitValue c := by simp [valueOf]
    rw [hv]
    calc digitValue c * radix.pow s.length + valueOf radix s
        < digitValue c * radix.pow s.length + radix.pow s.length := by omega
      _ = (digitValue c + 1) * radix.pow s.length := by rw [Nat.add_mul, Nat.one_mul]
      _ ≤ radix * radix.pow s.length := Nat.mul_le_mul_right _ hc

/-! ## Readers -/

/-- The number that a numeral denotes; nothing for a text that is no numeral. -/
def natural? (radix : Nat) (s : Text) : Option Nat :=
  if IsNumeral radix s then some (valueOf radix s) else none

/-- A numeral without the plus sign that may stand before it. -/
def withoutPlus : Text → Text
  | '+' :: s => s
  | s => s

/-- A number of at most `bits` bits, with or without a plus sign. -/
def unsigned? (bits radix : Nat) (s : Text) : Option Nat :=
  (natural? radix (withoutPlus s)).filter (· < Nat.pow 2 bits)

/-- A decimal number that `bits` bits hold in two's complement, with or without a sign. -/
def integer? (bits : Nat) : Text → Option Int
  | '-' :: s => ((natural? 10 s).filter (· ≤ Nat.pow 2 (bits - 1))).map fun n : Nat => -(n : Int)
  | s =>
    ((natural? 10 (withoutPlus s)).filter (· < Nat.pow 2 (bits - 1))).map fun n : Nat => (n : Int)

/-- The decimal size of a field or of a width: a run of digits that 64 bits hold. -/
def size? (s : Text) : Option Nat := if s.allDigits then unsigned? 64 10 s else none

theorem size?_lt {s : Text} {n : Nat} (h : size? s = some n) : n < Nat.pow 2 64 := by
  unfold size? at h
  split at h
  · simp only [unsigned?, Option.filter_eq_some_iff, decide_eq_true_eq] at h
    exact h.2
  · cases h

/-! ## Printers -/

/-- A number in decimal digits. -/
def decimal (n : Nat) : Text := Nat.toDigits 10 n

/-- A number in lower-case hexadecimal digits, without leading zeros. -/
def hexadecimal (n : Nat) : Text := Nat.toDigits 16 n

/-- An integer in decimal, with a minus sign if it is negative. -/
def signedDecimal (v : Int) : Text :=
  if v < 0 then '-' :: decimal v.natAbs else decimal v.natAbs

/-- The two hexadecimal digits of a byte. -/
def hexByte (b : UInt8) : Text := [(b.toNat / 16).digitChar, (b.toNat % 16).digitChar]

/-- The eight binary digits of a byte. -/
def binaryByte (b : UInt8) : Text :=
  [128, 64, 32, 16, 8, 4, 2, 1].map fun w => (b.toNat / w % 2).digitChar

/-- The hexadecimal digits of a byte string, two for each byte. -/
def hexBytes (bs : Bytes) : Text := bs.flatMap hexByte

/-- The binary digits of a byte string, eight for each byte. -/
def binaryBytes (bs : Bytes) : Text := bs.flatMap binaryByte

theorem length_hexBytes (bs : Bytes) : (hexBytes bs).length = 2 * bs.length := by
  induction bs with
  | nil => rfl
  | cons b bs ih => simp only [hexBytes, List.flatMap_cons, List.length_append] at ih ⊢
                    simp only [hexByte, List.length_cons, List.length_nil, ih]; omega

end ByteScript
