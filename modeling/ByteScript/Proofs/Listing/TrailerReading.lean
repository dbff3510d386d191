import ByteScript.Proofs.Number.LeastWidth
import ByteScript.Proofs.Listing.HeaderReading

/-!
# Bytes left over as script

The bytes that no field describes follow as hexadecimal literals without a directive. They are
read back at the width that the lines before them leave active: as single bytes if that is one, or
if each number takes its least width, and else as something of another length.

* `trailerPieces`, `scriptScan_trailer`, `exists_scanScript_trailer`: the tokens of the bytes left
  over, by themselves and after a part of a script;
* **`executes_trailer`**: at the width one or at the least width they are the bytes;
* **`length_of_exec_trailer`**: at any other width there are as many times more.
-/

namespace ByteScript

/-- The pieces of bytes left over. -/
def trailerPieces (bs : Bytes) : List (ScriptKind × Text) :=
  bs.map fun b => (.hex, '#' :: hexadecimal b.toNat)

theorem isNumeral_hexadecimal (n : Nat) : IsNumeral 16 (hexadecimal n) :=
  isNumeral_toDigits (by decide) (by decide) n

theorem isHexDigit_of_mem_hexadecimal {n : Nat} {c : Char} (h : c ∈ hexadecimal n) :
    isHexDigit c = true := digitValue_lt_sixteen_iff.mp ((isNumeral_hexadecimal n).2 c h)

theorem trailer_cons (b c : UInt8) (bs : Bytes) :
    trailer (b :: c :: bs) = '#' :: hexadecimal b.toNat ++ [' '] ++ trailer (c :: bs) := by
  simp only [trailer, List.map_cons, List.intercalate_cons_cons]

/-- **The tokens of bytes left over** at the end of a script. -/
theorem scriptScan_trailer (bs : Bytes) (start line : Nat) :
    ∃ ts, ts.map Token.piece = trailerPieces bs ∧ scriptScan start line (trailer bs) = .ok ts := by
  induction bs generalizing start line with
  | nil => exact ⟨[], rfl, scriptScan_nil start line⟩
  | cons b bs ih =>
    have hdigits := isNumeral_hexadecimal b.toNat
    cases bs with
    | nil =>
      have hnext := next_hex hdigits.1 (fun c hc => isHexDigit_of_mem_hexadecimal hc) (r := []) rfl
      rw [List.append_nil] at hnext
      rw [Nat.add_comm, ← List.length_cons] at hnext
      have hone : trailer [b] = '#' :: hexadecimal b.toNat := by
        simp only [trailer, List.map_cons, List.map_nil, List.intercalate_singleton]
      rw [hone]
      exact ⟨_, rfl, scriptScan_single (List.cons_ne_nil _ _) (by decide) hnext start line⟩
    | cons c bs =>
      have hlexeme : IsLexeme ' ' .hex ('#' :: hexadecimal b.toNat) :=
        isLexeme_hex (by decide) hdigits.1 fun c hc => isHexDigit_of_mem_hexadecimal hc
      have hscans := Scans.lexeme (by decide) hlexeme
      obtain ⟨ts, hts, hscan⟩ := hscans start line (trailer (c :: bs))
      obtain ⟨us, hus, hrest⟩ := ih (start + Text.utf8Size ('#' :: hexadecimal b.toNat ++ [' ']))
        (line + Text.newlines ('#' :: hexadecimal b.toNat ++ [' ']))
      refine ⟨ts ++ us, ?_, ?_⟩
      · rw [List.map_append, hts, hus]
        rfl
      · rw [trailer_cons, hscan, hrest]
        rfl

/-- Bytes left over after a part of a script. -/
theorem exists_scanScript_trailer {s : Text} {ps : List (ScriptKind × Text)} (hs : Scans s ps)
    (bs : Bytes) : ∃ ts us, ts.map Token.piece = ps ∧ us.map Token.piece = trailerPieces bs ∧
      scanScript (s ++ trailer bs) = .ok (ts ++ us) := by
  obtain ⟨ts, hts, hscan⟩ := hs 0 1 (trailer bs)
  obtain ⟨us, hus, htrailer⟩ := scriptScan_trailer bs (0 + s.utf8Size) (1 + s.newlines)
  refine ⟨ts, us, hts, hus, ?_⟩
  rw [scanScript_eq, hscan, htrailer]
  rfl

/-! ## Widths -/

section Widths

variable {st : Settings} {define : Nat → Text → Except CompileError Bytes} {scope : Scope}

theorem exists_read?_hexadecimal (b : UInt8) :
    ∃ x, SignedMagnitude.read? 16 (hexadecimal b.toNat) false = some x ∧ x.negative = false ∧
      x.magnitude = b.toNat := by
  have hval : valueOf 16 (hexadecimal b.toNat) = b.toNat :=
    valueOf_toDigits (by decide) (by decide) _
  obtain ⟨x, hread, _, hneg, hmag⟩ := SignedMagnitude.read?_of_isNumeral (by decide)
    (isNumeral_hexadecimal b.toNat)
    (by rw [hval]; exact Nat.lt_trans (byte_lt b) (by decide)) false
  exact ⟨x, hread, hneg, hmag.trans hval⟩

/-- The least width of a byte is one. -/
theorem minimalWidth_of_lt {x : SignedMagnitude} (hneg : x.negative = false)
    (hlt : x.magnitude < 256) : x.minimalWidth = 1 := by
  have hvalue : x.value = x.magnitude := by
    rw [SignedMagnitude.value, hneg, if_neg Bool.false_ne_true]
  have hfits : FitsWidth 1 x.value := by
    have hbyte : Nat.pow 2 (8 * 1) = 256 := rfl
    rw [FitsWidth, if_neg Nat.one_ne_zero, hvalue, hbyte]
    omega
  exact Nat.le_antisymm ((x.minimalWidth_le_iff (Nat.le_refl 1)).mpr hfits) x.one_le_minimalWidth

/-- **At the width one or at the least width the bytes left over are read back.** -/
theorem executes_trailer {bs : Bytes} (hpad : scope.pad = none ∨ scope.pad = some 1) :
    Executes st define scope (trailerPieces bs) scope bs := by
  induction bs with
  | nil => exact Executes.nil scope
  | cons b bs ih =>
    obtain ⟨x, hread, hneg, hmag⟩ := exists_read?_hexadecimal b
    have hbytes : x.toBytes? [b].length = some [b] := by
      refine toBytes?_of_ofBigEndian hneg ?_
      rw [hmag, ofBigEndian_cons]
      simp [ofBigEndian]
    have hwidth : scope.pad.getD x.minimalWidth = 1 := by
      rcases hpad with h | h
      · rw [h, Option.getD_none, minimalWidth_of_lt hneg (hmag ▸ byte_lt b)]
      · rw [h, Option.getD_some]
    have hhead : Executes st define scope [(.hex, '#' :: hexadecimal b.toNat)] scope [b] := by
      refine Executes.hex ?_
      rw [List.drop_succ_cons, List.drop_zero]
      simp only [integerBytes, hread, hwidth]
      rw [show (1 : Nat) = [b].length from rfl, hbytes]
    exact hhead.append ih

/-- **At a width each byte left over gives that many bytes.** -/
theorem length_of_exec_trailer {w : Nat} (hpad : scope.pad = some w) {bs : Bytes}
    {ts : List (Token ScriptKind)} (hts : ts.map Token.piece = trailerPieces bs)
    {p : Scope × Bytes} (h : scope.exec st define ts = .ok p) : p.2.length = w * bs.length := by
  induction bs generalizing ts p with
  | nil =>
    rw [List.map_eq_nil_iff.mp hts] at h
    obtain rfl := Except.ok.inj h
    rfl
  | cons b bs ih =>
    obtain ⟨t, us, rfl, ht, hus⟩ := List.map_eq_cons_iff.mp hts
    obtain ⟨hkind, htext⟩ := Prod.mk.inj ht
    rw [Scope.exec_cons] at h
    obtain ⟨q, hq, h⟩ := exists_of_bind_eq_ok h
    obtain ⟨r, hr, rfl⟩ := exists_of_map_eq_ok h
    rw [Scope.step, hkind] at hq
    obtain ⟨v, hv, rfl⟩ := exists_of_map_eq_ok hq
    rw [hpad] at hv
    have hlen := length_of_integerBytes (mapError_eq_ok_iff.mp hv)
    rw [List.length_append, hlen, ih hus hr, List.length_cons, Nat.mul_succ, Nat.add_comm]

end Widths

/-! ## Scripts -/

/-- **A script with bytes left over at its end** gives them as they are exactly if there are none
or its last width is one or not set. -/
theorem compile_trailer_eq_ok_iff {st : Settings} {s : Text} {ps : List (ScriptKind × Text)}
    {scope : Scope} {bs : Bytes} (rest : Bytes) (hs : Scans s ps)
    (hexec : Executes st (defineWithin st st.maxDepth) (Scope.root st) ps scope bs) :
    compile st (s ++ '\n' :: trailer rest) = .ok (bs ++ rest) ↔
      rest = [] ∨ scope.pad = none ∨ scope.pad = some 1 := by
  obtain ⟨ts, us, hts, hus, htokens⟩ :=
    exists_scanScript_trailer (hs.append (Scans.blank (c := '\n') (by decide))) rest
  rw [List.append_assoc, List.singleton_append] at htokens
  have hrun : compile st (s ++ '\n' :: trailer rest) =
      (scope.exec st (defineWithin st st.maxDepth) us).map fun q => bs ++ q.2 := by
    rw [compile, compileWithin_eq, runScript, htokens]
    change (Scope.root st).run st _ (ts ++ us) = _
    rw [Scope.run_eq_exec, Scope.exec_append, hexec ts (by rw [hts, List.append_nil])]
    change ((scope.exec st _ us).map _).map Prod.snd = _
    cases scope.exec st (defineWithin st st.maxDepth) us <;> rfl
  rw [hrun]
  constructor
  · intro h
    obtain ⟨p, hp, hbytes⟩ := exists_of_map_eq_ok h
    have hrest : p.2 = rest := List.append_cancel_left hbytes
    cases hpad : scope.pad with
    | none => exact Or.inr (Or.inl rfl)
    | some w =>
      have hlen := length_of_exec_trailer hpad hus hp
      rw [hrest] at hlen
      by_cases hnil : rest = []
      · exact Or.inl hnil
      · have hpos : 0 < rest.length := List.length_pos_iff.mpr hnil
        have hw : w = 1 := by
          refine Nat.eq_of_mul_eq_mul_right hpos ?_
          rw [← hlen, Nat.one_mul]
        exact Or.inr (Or.inr (by rw [hw]))
  · rintro (rfl | hpad)
    · rw [List.map_eq_nil_iff.mp hus]
      rfl
    · rw [executes_trailer hpad us hus]
      rfl

end ByteScript
