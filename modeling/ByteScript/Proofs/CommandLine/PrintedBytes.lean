import ByteScript.CommandLine.Run
import ByteScript.Proofs.Literal.Quotation

/-!
# Printed bytes read back

A run without an output file prints the compiled bytes. What it prints is printable ASCII, and
between single marks it is a literal: its value has the bytes for its code points.

* `byteChar`: the character of a byte;
* `writtenAs_escapedByte`: a byte is printed as its character is written in a literal;
* `isPrintable_of_mem_escapedBytes`: printed bytes are printable ASCII;
* `escapedBytes_injective`: different bytes print differently;
* **`unquote_escapedBytes`**: what printed bytes are read back as.
-/

namespace ByteScript

/-- The character with a byte for its code point. -/
def byteChar (b : UInt8) : Char := Char.ofNat b.toNat

theorem toNat_byteChar (b : UInt8) : (byteChar b).toNat = b.toNat := by
  have hv : b.toNat.isValidChar := Or.inl (Nat.lt_trans (byte_lt b) (by decide))
  rw [byteChar, Char.ofNat, dif_pos hv]
  rfl

theorem byteChar_injective : Function.Injective byteChar := by
  intro a b h
  have hn := congrArg Char.toNat h
  rw [toNat_byteChar, toNat_byteChar] at hn
  exact UInt8.toNat_inj.mp hn

/-! ## One byte -/

/-- A byte is printed as its character is written between single marks. -/
theorem writtenAs_escapedByte (b : UInt8) : WrittenAs '\'' (byteChar b) (escapedByte b) := by
  unfold escapedByte
  by_cases h₁ : b = 9
  · subst h₁
    exact .escaped (by decide) rfl
  rw [if_neg h₁]
  by_cases h₂ : b = 10
  · subst h₂
    exact .escaped (by decide) rfl
  rw [if_neg h₂]
  by_cases h₃ : b = 13
  · subst h₃
    exact .escaped (by decide) rfl
  rw [if_neg h₃]
  by_cases h₄ : b = 34 ∨ b = 39 ∨ b = 92
  · rcases h₄ with rfl | rfl | rfl <;> exact .escaped (by decide) rfl
  rw [if_neg h₄]
  by_cases h₅ : 32 ≤ b.toNat ∧ b.toNat < 127
  · rw [if_pos h₅]
    have hne : ∀ d : UInt8, b ≠ d → byteChar b ≠ byteChar d := fun d => byteChar_injective.ne
    rw [not_or, not_or] at h₄
    exact .plain ⟨hne 92 h₄.2.2, hne 39 h₄.2.1, hne 10 h₂, hne 13 h₃⟩
  · rw [if_neg h₅]
    exact .coded (toNat_byteChar b).symm

/-- A byte is printed in printable ASCII. -/
theorem isPrintable_of_mem_escapedByte {b : UInt8} {c : Char} (h : c ∈ escapedByte b) :
    32 ≤ c.toNat ∧ c.toNat < 127 := by
  have hex : ∀ n < 16, 32 ≤ n.digitChar.toNat ∧ n.digitChar.toNat < 127 := by decide
  have hb := byte_lt b
  have escape : ∀ {x : Char}, 32 ≤ x.toNat ∧ x.toNat < 127 → c ∈ ['\\', x] →
      32 ≤ c.toNat ∧ c.toNat < 127 := by
    intro x hx hc
    rcases List.mem_cons.mp hc with rfl | hc
    · decide
    · exact List.mem_singleton.mp hc ▸ hx
  unfold escapedByte at h
  split at h
  · exact escape (by decide) h
  split at h
  · exact escape (by decide) h
  split at h
  · exact escape (by decide) h
  split at h
  next hquote => rcases hquote with rfl | rfl | rfl <;> exact escape (by decide) h
  split at h
  next hrange =>
    rw [List.mem_singleton.mp h, ← byteChar, toNat_byteChar]
    exact hrange
  · rw [hexByte] at h
    simp only [List.mem_cons, List.not_mem_nil, or_false] at h
    rcases h with rfl | rfl | rfl | rfl
    · decide
    · decide
    · exact hex _ (by omega)
    · exact hex _ (by omega)

/-! ## Byte strings -/

/-- Bytes are printed in printable ASCII. -/
theorem isPrintable_of_mem_escapedBytes {bs : Bytes} {c : Char} (h : c ∈ escapedBytes bs) :
    32 ≤ c.toNat ∧ c.toNat < 127 := by
  obtain ⟨b, -, hc⟩ := List.mem_flatMap.mp h
  exact isPrintable_of_mem_escapedByte hc

/-- Printed bytes between single marks are a literal of their characters. -/
theorem unquote_escapedBytes_eq (bs : Bytes) :
    unquote ('\'' :: (escapedBytes bs ++ ['\''])) = .ok (bs.map byteChar) :=
  unquote_written (Or.inl rfl) writtenAs_escapedByte bs

/-- Different bytes print differently. -/
theorem escapedBytes_injective : Function.Injective escapedBytes := by
  intro as bs h
  have hvalue := unquote_escapedBytes_eq as
  rw [h, unquote_escapedBytes_eq bs] at hvalue
  exact (List.map_inj_right fun _ _ hb => byteChar_injective hb).mp (Except.ok.inj hvalue).symm

/-- **Printed bytes can be read back.** They are printable ASCII; between single marks they are a
literal, whose value has the bytes for its code points, one character for each; and no other bytes
print the same. -/
theorem unquote_escapedBytes (bs : Bytes) :
    (∀ c ∈ escapedBytes bs, 32 ≤ c.toNat ∧ c.toNat < 127) ∧
      (∃ t, unquote ('\'' :: (escapedBytes bs ++ ['\''])) = .ok t ∧
        t.length = bs.length ∧ t.map Char.toNat = bs.map UInt8.toNat) ∧
      ∀ cs, cs ≠ bs → escapedBytes cs ≠ escapedBytes bs := by
  refine ⟨fun c hc => isPrintable_of_mem_escapedBytes hc,
    ⟨bs.map byteChar, unquote_escapedBytes_eq bs, List.length_map _, ?_⟩,
    fun cs hne => escapedBytes_injective.ne hne⟩
  rw [List.map_map]
  exact List.map_congr_left fun b _ => toNat_byteChar b

example : escapedBytes [0, 39, 92, 49, 200] = "\\x00\\'\\\\1\\xc8".toList := by decide

end ByteScript
