import ByteScript.Script.Pattern

/-!
# Classes of characters as ranges of code points

The tests by which patterns tell characters apart, stated on code points, so that two classes are
seen to be disjoint or nested by comparing numbers.

* `toNat_inj_iff`, `le_iff_toNat`: characters are compared by their code points;
* `isDigit_iff`, `isLower_iff`, `isUpper_iff`, `isAlpha_iff`: letters and digits;
* `isNameStart_iff`, `isNameChar_iff`, `isHexDigit_iff`, `isBlank_iff`, `isQuote_iff`: the classes of
  a script;
* `isQuote_iff_mark`: the two marks;
* `utf8Size_of_ascii`: the bytes of a text in ASCII.
-/

namespace ByteScript

variable {c d : Char}

theorem toNat_inj_iff : c = d ↔ c.toNat = d.toNat := Char.toNat_inj.symm

theorem le_iff_toNat : c ≤ d ↔ c.toNat ≤ d.toNat := by
  rw [Char.le_def, UInt32.le_iff_toNat_le, Char.toNat_val, Char.toNat_val]

theorem isDigit_iff : c.isDigit = true ↔ 48 ≤ c.toNat ∧ c.toNat ≤ 57 := by
  rw [Char.isDigit, Bool.and_eq_true, decide_eq_true_eq, decide_eq_true_eq, ge_iff_le,
    UInt32.le_iff_toNat_le, UInt32.le_iff_toNat_le, Char.toNat_val]
  exact Iff.rfl

theorem isLower_iff : c.isLower = true ↔ 97 ≤ c.toNat ∧ c.toNat ≤ 122 := by
  change (decide (c.val ≥ 'a'.val) && decide (c.val ≤ 'z'.val)) = true ↔ _
  rw [Bool.and_eq_true, decide_eq_true_eq, decide_eq_true_eq, ge_iff_le,
    UInt32.le_iff_toNat_le, UInt32.le_iff_toNat_le, Char.toNat_val]
  exact Iff.rfl

theorem isUpper_iff : c.isUpper = true ↔ 65 ≤ c.toNat ∧ c.toNat ≤ 90 := by
  change decide (c.val ≥ 'A'.val ∧ c.val ≤ 'Z'.val) = true ↔ _
  rw [decide_eq_true_eq, ge_iff_le, UInt32.le_iff_toNat_le, UInt32.le_iff_toNat_le, Char.toNat_val]
  exact Iff.rfl

theorem isAlpha_iff : c.isAlpha = true ↔
    65 ≤ c.toNat ∧ c.toNat ≤ 90 ∨ 97 ≤ c.toNat ∧ c.toNat ≤ 122 := by
  change (c.isUpper || c.isLower) = true ↔ _
  rw [Bool.or_eq_true, isUpper_iff, isLower_iff]

theorem isNameStart_iff : isNameStart c = true ↔
    65 ≤ c.toNat ∧ c.toNat ≤ 90 ∨ 97 ≤ c.toNat ∧ c.toNat ≤ 122 ∨ c.toNat = 95 := by
  change (c.isUpper || c.isLower || c == '_') = true ↔ _
  rw [Bool.or_eq_true, Bool.or_eq_true, isUpper_iff, isLower_iff,
    beq_iff_eq, toNat_inj_iff, or_assoc]
  exact Iff.rfl

theorem isNameChar_iff : isNameChar c = true ↔
    65 ≤ c.toNat ∧ c.toNat ≤ 90 ∨ 97 ≤ c.toNat ∧ c.toNat ≤ 122 ∨ 48 ≤ c.toNat ∧ c.toNat ≤ 57 ∨
      c.toNat = 95 := by
  change (c.isUpper || c.isLower || c.isDigit || c == '_') = true ↔ _
  rw [Bool.or_eq_true, Bool.or_eq_true,
    Bool.or_eq_true, isUpper_iff, isLower_iff, isDigit_iff, beq_iff_eq, toNat_inj_iff, or_assoc,
    or_assoc]
  exact Iff.rfl

theorem isHexDigit_iff : isHexDigit c = true ↔
    48 ≤ c.toNat ∧ c.toNat ≤ 57 ∨ 97 ≤ c.toNat ∧ c.toNat ≤ 102 ∨ 65 ≤ c.toNat ∧ c.toNat ≤ 70 := by
  rw [isHexDigit, Bool.or_eq_true, Bool.or_eq_true, Bool.and_eq_true, Bool.and_eq_true,
    isDigit_iff, decide_eq_true_eq, decide_eq_true_eq, decide_eq_true_eq, decide_eq_true_eq,
    le_iff_toNat, le_iff_toNat, le_iff_toNat, le_iff_toNat, or_assoc]
  exact Iff.rfl

theorem isBlank_iff : isBlank c = true ↔
    9 ≤ c.toNat ∧ c.toNat ≤ 13 ∨ c.toNat = 32 ∨ c.toNat = 133 ∨ c.toNat = 160 ∨ c.toNat = 5760 ∨
      8192 ≤ c.toNat ∧ c.toNat ≤ 8202 ∨ 8232 ≤ c.toNat ∧ c.toNat ≤ 8233 ∨ c.toNat = 8239 ∨
      c.toNat = 8287 ∨ c.toNat = 12288 := by
  simp only [isBlank, blankRanges, List.any_cons, List.any_nil, Bool.or_eq_true,
    Bool.and_eq_true, decide_eq_true_eq, Bool.or_false]
  omega

theorem isQuote_iff_mark : isQuote c = true ↔ c = '\'' ∨ c = '"' := by
  rw [isQuote, Bool.or_eq_true, beq_iff_eq, beq_iff_eq]

theorem isQuote_iff : isQuote c = true ↔ c.toNat = 39 ∨ c.toNat = 34 := by
  rw [isQuote_iff_mark, toNat_inj_iff, toNat_inj_iff]
  exact Iff.rfl

theorem isHexDigit_of_isDigit (h : c.isDigit = true) : isHexDigit c = true := by
  rw [isDigit_iff] at h
  rw [isHexDigit_iff]
  omega

/-- A text in ASCII has as many bytes as characters. -/
theorem utf8Size_of_ascii {s : Text} (h : ∀ c ∈ s, c.toNat < 128) : s.utf8Size = s.length := by
  induction s with
  | nil => rfl
  | cons c s ih =>
    have hc := h c List.mem_cons_self
    have hone : c.utf8Size = 1 := Char.utf8Size_eq_one_iff.mpr (UInt32.le_iff_toNat_le.mpr (by
      change c.toNat ≤ 127
      omega))
    rw [Text.utf8Size_cons, hone, ih fun d hd => h d (List.mem_cons_of_mem _ hd),
      List.length_cons, Nat.add_comm]

end ByteScript
