import ByteScript.Listing.Value
import ByteScript.Proofs.Number.TwosComplement
import ByteScript.Proofs.Script.Execution

/-!
# Literals of values

After a directive with the width of some bytes, the literal that a listing writes for them is one
token with exactly these bytes.

* `numberKinds`, `IsLiteralOf`: the kinds of such tokens, and the text is one;
* **`integerBytes_eq`**: the bytes of the digits of an integer at a width;
* `isLiteralOf_signed`, `isLiteralOf_hex`, `isLiteralOf_binary`, **`isLiteralOf_float`**: the
  literals of the formats.
-/

namespace ByteScript

/-- The kinds of token that stand for a number. -/
def numberKinds : List ScriptKind := [.integer, .hex, .binary, .float]

/-- The text is one token, and at the width of the bytes it stands for them. -/
structure IsLiteralOf (bs : Bytes) (k : ScriptKind) (s : Text) : Prop where
  isNumber : k ∈ numberKinds
  isLexeme : IsLexeme '\n' k s
  executes : ∀ {st : Settings} {define : Nat → Text → Except CompileError Bytes} {scope : Scope},
    scope.pad = some bs.length → Executes st define scope [(k, s)] scope bs

theorem integerBytes_of_read? {text digits : Text} {radix w : Nat} {negative : Bool}
    {x : SignedMagnitude} {bs : Bytes}
    (hread : SignedMagnitude.read? radix digits negative = some x)
    (hbytes : x.toBytes? w = some bs) :
    integerBytes (some w) text radix digits negative = .ok bs := by
  simp only [integerBytes, hread, Option.getD_some, hbytes]

/-- **The bytes of digits at a width**: the big-endian form of their number modulo the width, if the
width holds it. -/
theorem integerBytes_eq {radix : Nat} (hradix : radix ≤ 36) {digits : Text}
    (hdigits : IsNumeral radix digits) {negative : Bool} {v : Int}
    (hv : v = if negative then -(valueOf radix digits : Int) else valueOf radix digits) (w : Nat)
    (text : Text) : integerBytes (some w) text radix digits negative =
      if Nat.pow 2 128 ≤ v.natAbs then .error (.invalidNumber text)
      else if FitsWidth w v then .ok (bigEndian w (v % (Nat.pow 2 (8 * w) : Nat)).toNat)
      else .error (.overflow text w) := by
  have habs : v.natAbs = valueOf radix digits := by
    rw [hv]
    split <;> omega
  rw [habs]
  by_cases hle : Nat.pow 2 128 ≤ valueOf radix digits
  · rw [if_pos hle, integerBytes, SignedMagnitude.read?_of_le hradix hdigits hle]
  · obtain ⟨x, hread, hcan, hvalue⟩ :=
      SignedMagnitude.exists_read?_value hradix hdigits (Nat.not_le.mp hle) negative
    have hbytes := SignedMagnitude.toBytes?_eq hcan w
    rw [hvalue, ← hv] at hbytes
    rw [if_neg hle]
    simp only [integerBytes, hread, Option.getD_some, hbytes]
    by_cases hfits : FitsWidth w v
    · simp only [if_pos hfits]
    · simp only [if_neg hfits]

/-- The literal of a number with its sign has the value of the number. -/
theorem exists_read?_decimal {v : Int} (hv : v.natAbs < Nat.pow 2 128) :
    ∃ x, SignedMagnitude.read? 10 (decimal v.natAbs) (decide (v < 0)) = some x ∧ x.IsCanonical ∧
      x.value = v := by
  have hval := valueOf_decimal v.natAbs
  obtain ⟨x, hread, hcan, hvalue⟩ := SignedMagnitude.exists_read?_value (by decide)
    (isNumeral_decimal v.natAbs) (by rw [hval]; exact hv) (decide (v < 0))
  refine ⟨x, hread, hcan, ?_⟩
  rw [hvalue, hval]
  simp only [decide_eq_true_eq]
  split <;> omega

/-- A value with its sign is a sign and the digits of its magnitude. -/
theorem signedText_eq {bs : Bytes} {s : Text} (h : signedText bs = .ok s) :
    ∃ v, signedValue? bs = some v ∧ s = (if v < 0 then '-' else '+') :: decimal v.natAbs := by
  unfold signedText at h
  split at h
  · rename_i v hv
    refine ⟨v, hv, ?_⟩
    have hs := Except.ok.inj h
    by_cases hneg : v < 0
    · rw [← hs, if_pos hneg, if_pos hneg, signedDecimal, if_pos hneg]
    · rw [← hs, if_neg hneg, if_neg hneg, signedDecimal, if_neg hneg]
  · cases h

theorem isLiteralOf_signed {bs : Bytes} {s : Text} (h : signedText bs = .ok s) :
    IsLiteralOf bs .integer s := by
  obtain ⟨v, hv, rfl⟩ := signedText_eq h
  obtain ⟨x, hread, hcan, hx⟩ := exists_read?_decimal (natAbs_lt_of_signedValue? hv)
  have hbytes := toBytes?_of_signedValue? hv hcan hx
  refine ⟨by decide, ?_, ?_⟩
  · refine isLexeme_integer ?_ (allDigits_decimal _)
    split
    · exact Or.inr rfl
    · exact Or.inl rfl
  · intro st define scope hpad
    have hhead : (((if v < 0 then '-' else '+') :: decimal v.natAbs).head? == some '-') =
        decide (v < 0) := by
      by_cases hneg : v < 0
      · rw [if_pos hneg, decide_eq_true hneg]
        rfl
      · rw [if_neg hneg, decide_eq_false hneg]
        rfl
    refine Executes.integer ?_
    rw [hpad, hhead, List.drop_succ_cons, List.drop_zero]
    exact integerBytes_of_read? hread hbytes

theorem exists_read?_unsigned {radix : Nat} (h : radix ≤ 36) {digits : Text} {bs : Bytes}
    (hdigits : IsNumeral radix digits) (hval : valueOf radix digits = ofBigEndian bs)
    (hlen : bs.length ≤ 16) :
    ∃ x, SignedMagnitude.read? radix digits false = some x ∧ x.toBytes? bs.length = some bs := by
  have hlt : ofBigEndian bs < Nat.pow 2 128 :=
    Nat.lt_of_lt_of_le (ofBigEndian_lt bs) (Nat.le_of_dvd (by decide) (pow_256_dvd hlen))
  obtain ⟨x, hread, _, hneg, hmag⟩ := SignedMagnitude.read?_of_isNumeral h hdigits
    (by rw [hval]; exact hlt) false
  exact ⟨x, hread, toBytes?_of_ofBigEndian hneg (hmag.trans hval)⟩

theorem isLexeme_hexBytes {bs : Bytes} (hne : bs ≠ []) :
    IsLexeme '\n' .hex ('#' :: hexBytes bs) :=
  isLexeme_hex (by decide) (isNumeral_hexBytes hne).1 fun _ hc => isHexDigit_of_mem_hexBytes hc

theorem isLexeme_binaryBytes {bs : Bytes} (hne : bs ≠ []) :
    IsLexeme '\n' .binary (binaryBytes bs) :=
  isLexeme_binary (isNumeral_binaryBytes hne).1 fun _ hc => binary_digit_of_mem_binaryBytes hc

theorem isLiteralOf_hex {bs : Bytes} (hne : bs ≠ []) (hlen : bs.length ≤ 16) :
    IsLiteralOf bs .hex ('#' :: hexBytes bs) := by
  obtain ⟨x, hread, hbytes⟩ := exists_read?_unsigned (by decide) (isNumeral_hexBytes hne)
    (valueOf_hexBytes bs) hlen
  refine ⟨by decide, isLexeme_hexBytes hne, fun {st define scope} hpad => Executes.hex ?_⟩
  rw [hpad]
  exact integerBytes_of_read? hread hbytes

theorem isLiteralOf_binary {bs : Bytes} (hne : bs ≠ []) (hlen : bs.length ≤ 16) :
    IsLiteralOf bs .binary (binaryBytes bs) := by
  obtain ⟨x, hread, hbytes⟩ := exists_read?_unsigned (by decide) (isNumeral_binaryBytes hne)
    (valueOf_binaryBytes bs) hlen
  have hfilter : (binaryBytes bs).filter (fun c => c == '0' || c == '1') = binaryBytes bs := by
    rw [List.filter_eq_self]
    intro c hc
    rcases binary_digit_of_mem_binaryBytes hc with rfl | rfl <;> rfl
  refine ⟨by decide, isLexeme_binaryBytes hne, fun {st define scope} hpad => Executes.binary ?_⟩
  rw [hpad, hfilter]
  exact integerBytes_of_read? hread hbytes

/-- **The literal of a floating-point value**, finite or not. -/
theorem isLiteralOf_float {bs : Bytes} {s : Text} (h : floatValueText bs = .ok s) :
    ∃ k, IsLiteralOf bs k s := by
  rw [floatValueText] at h
  cases hx : BinaryFloat.ofBytes? bs with
  | none =>
    rw [hx] at h
    cases h
  | some x =>
    rw [hx] at h
    have hs := Except.ok.inj h
    by_cases hfin : x.isFinite = true
    · rw [if_pos hfin] at hs
      obtain ⟨p, htext, hbytes⟩ := exists_floatText hx hfin
      rw [htext] at hs
      subst hs
      refine ⟨.float, by decide, isLexeme_point p, fun {st define scope} hpad => Executes.float ?_⟩
      rw [hpad]
      exact hbytes
    · rw [if_neg hfin] at hs
      subst hs
      have hlen : bs.length = 4 ∨ bs.length = 8 := by
        unfold BinaryFloat.ofBytes? at hx
        split at hx
        · exact Or.inl (by assumption)
        · exact Or.inr (by assumption)
        · cases hx
      refine ⟨.hex, isLiteralOf_hex ?_ (by omega)⟩
      rintro rfl
      simp at hlen

end ByteScript
