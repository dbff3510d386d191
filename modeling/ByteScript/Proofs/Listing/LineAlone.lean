import ByteScript.Proofs.Listing.SingleValue
import ByteScript.Proofs.Script.IntegerLiteral

/-!
# The line of a number

A line of a listing is a directive with the width of some bytes and the number that they denote, and
by itself it is a script. In decimal the script has these bytes. In hexadecimal and in binary the
line has all digits of the bytes, which may be none or stand for a number that no script holds.

* `IntegerText.bytes_of_unsigned`, `IntegerText.bytes_of_signed`: literals of bytes;
* `exists_hex_of_bytes`, `exists_binary_of_bytes`, `exists_decimal_of_bytes`: those of a listing;
* `compile_decimal_line`, `compile_binary_line`, `compile_hex_line`: lines with a width in digits;
* **`compile_listing_of_number`**: listings of one number.
-/

namespace ByteScript

/-! ## Literals of bytes -/

namespace IntegerText

variable {l : IntegerText} {bs : Bytes}

theorem bytes_of_emod (hfits : FitsWidth bs.length l.value)
    (hmod : l.value % (Nat.pow 2 (8 * bs.length) : Nat) = ofBigEndian bs) :
    l.bytes (some bs.length) =
      if Nat.pow 2 128 ≤ l.value.natAbs then .error (.invalidNumber l.text) else .ok bs := by
  rw [l.bytes_eq, if_pos hfits, hmod, Int.toNat_natCast, bigEndian_ofBigEndian]

/-- A literal with the unsigned number of bytes is the bytes, unless the number is too large. -/
theorem bytes_of_unsigned (hvalue : l.value = ofBigEndian bs) :
    l.bytes (some bs.length) =
      if Nat.pow 2 128 ≤ ofBigEndian bs then .error (.invalidNumber l.text) else .ok bs := by
  have hlt := ofBigEndian_lt bs
  rw [bytes_of_emod (hvalue ▸ fitsWidth_ofBigEndian bs), hvalue, Int.natAbs_natCast]
  rw [hvalue, pow_two_eq_pow_256]
  exact Int.emod_eq_of_lt (Int.natCast_nonneg _) (Int.ofNat_lt.mpr hlt)

/-- A literal with the signed number of bytes is the bytes. -/
theorem bytes_of_signed (hvalue : signedValue? bs = some l.value) :
    l.bytes (some bs.length) = .ok bs := by
  have hword := wordValue_of_signedValue? hvalue
  rw [bytes_of_emod, if_neg (Nat.not_le.mpr (natAbs_lt_of_signedValue? hvalue))]
  · rw [← hword]
    exact fitsWidth_wordValue bs
  · rw [← hword, pow_two_eq_pow_256]
    exact wordValue_emod bs

end IntegerText

section Literal

variable {bs : Bytes}

theorem exists_hex_of_bytes (hne : bs ≠ []) : ∃ l : IntegerText, l.text = '#' :: hexBytes bs ∧
    IsLexeme '\n' l.kind l.text ∧ l.value = ofBigEndian bs := by
  have hdigits : (hexBytes bs).all isHexDigit = true :=
    List.all_eq_true.mpr fun _ hc => isHexDigit_of_mem_hexBytes hc
  exact ⟨.hex (hexBytes bs) ⟨(isNumeral_hexBytes hne).1, hdigits⟩, rfl, isLexeme_hexBytes hne,
    congrArg Nat.cast (valueOf_hexBytes bs)⟩

theorem exists_binary_of_bytes (hne : bs ≠ []) : ∃ l : IntegerText, l.text = binaryBytes bs ∧
    IsLexeme '\n' l.kind l.text ∧ l.value = ofBigEndian bs := by
  obtain ⟨first, more, hdigits⟩ := List.exists_cons_of_ne_nil (isNumeral_binaryBytes hne).1
  have hbit : ∀ c ∈ first :: more, isBit c = true := by
    intro c hc
    rw [← hdigits] at hc
    rcases binary_digit_of_mem_binaryBytes hc with rfl | rfl <;> rfl
  have hmore : more.all (fun c => isBit c || c == ' ' || c == '_') = true := by
    refine List.all_eq_true.mpr fun c hc => ?_
    rw [hbit c (List.mem_cons_of_mem _ hc), Bool.true_or, Bool.true_or]
  have hfilter : (first :: more).filter isBit = binaryBytes bs := by
    rw [List.filter_eq_self.mpr hbit, hdigits]
  refine ⟨.binary first more ⟨hbit first List.mem_cons_self, hmore⟩, hdigits.symm, ?_, ?_⟩
  · rw [IntegerText.text, ← hdigits]
    exact isLexeme_binaryBytes hne
  · rw [IntegerText.value, hfilter, valueOf_binaryBytes]

theorem exists_decimal_of_bytes {s : Text} (h : signedText bs = .ok s) : ∃ l : IntegerText,
    l.text = s ∧ IsLexeme '\n' l.kind l.text ∧ signedValue? bs = some l.value := by
  obtain ⟨v, hv, rfl⟩ := signedText_eq h
  have hvalue : v = if decide (v < 0) = true then -(valueOf 10 (decimal v.natAbs) : Int)
      else valueOf 10 (decimal v.natAbs) := by
    rw [valueOf_decimal]
    simp only [decide_eq_true_eq]
    split <;> omega
  refine ⟨.decimal (decide (v < 0)) (decimal v.natAbs) (allDigits_decimal _), ?_, ?_, ?_⟩
  · simp only [IntegerText.text, decide_eq_true_eq]
  · exact isLexeme_integer (IntegerText.sign_cases _) (allDigits_decimal _)
  · rw [IntegerText.value, ← hvalue, hv]

end Literal

/-! ## Directives with a literal -/

theorem utf8Size_of_allDigits {s : Text} (h : s.allDigits = true) : s.utf8Size = s.length := by
  refine utf8Size_of_ascii fun c hc => ?_
  have := isDigit_iff.mp ((allDigits_iff.mp h).2 c hc)
  omega

section Directed

variable (st : Settings) {f : Field} (hdigits : f.type.allDigits = true)

include hdigits

/-- The directive of a line and the blank behind it. -/
theorem scriptScan_directed (literal : Text) :
    scriptScan 0 1 (directed f literal ++ ['\n']) =
      (scriptScan (f.type.length + 3) 1 (literal ++ ['\n'])).map
        ([⟨.pad, '[' :: (f.type ++ [']']), 0, 1⟩] ++ ·) := by
  have hclose : ']' ∉ f.type := not_mem_of_allDigits hdigits (by decide)
  have hline : '\n' ∉ f.type := not_mem_of_allDigits hdigits (by decide)
  have hsplit : directed f literal ++ ['\n'] =
      '[' :: (f.type ++ [']']) ++ ' ' :: (literal ++ ['\n']) := by
    simp [directed]
  have hnext : scriptTable.next ('[' :: (f.type ++ [']']) ++ ' ' :: (literal ++ ['\n'])) =
      (.pad, ('[' :: (f.type ++ [']'])).length) := by
    rw [List.cons_append, List.append_assoc, List.singleton_append, next_pad hclose]
    simp
  have hnewlines : Text.newlines ('[' :: (f.type ++ [']'])) = 0 := by
    simp [Text.newlines, List.count_eq_zero_of_not_mem, hline]
  have hsize : Text.utf8Size ('[' :: (f.type ++ [']'])) = f.type.length + 2 := by
    rw [Text.utf8Size_cons, Text.utf8Size_append, utf8Size_of_allDigits hdigits]
    change 1 + (f.type.length + 1) = _
    omega
  have hkept := keepToken_eq (t := ⟨.pad, '[' :: (f.type ++ [']']), 0, 1⟩) (by simp)
  rw [hsplit, scriptScan_token (List.cons_ne_nil _ _) hnext (by decide),
    scriptScan_blank (by decide), hnewlines, hsize, hkept, Nat.zero_add]
  rfl

variable (hlt : valueOf 10 f.type < Nat.pow 2 64)

include hlt

/-- **The line of a literal** gives its bytes at the width that the directive names. -/
theorem compile_directed {l : IntegerText} (hlexeme : IsLexeme '\n' l.kind l.text) :
    compile st (directed f l.text ++ ['\n']) =
      (l.bytes (some (valueOf 10 f.type))).mapError (CompileError.mk 1) := by
  have hscan := scriptScan_directed hdigits l.text
  have hliteral := scriptScan_lexeme (by decide) hlexeme (f.type.length + 3) 1 []
  rw [List.append_nil, scriptScan_nil] at hliteral
  rw [hliteral] at hscan
  rw [compile_eq, scanScript_eq, hscan]
  refine (exec_directive st _ _ _ l _ _ 1).trans ?_
  rw [padWidth_digits hdigits (size?_of_allDigits hdigits hlt)]
  rfl

/-- The line of a number without digits, in binary. -/
theorem compile_directed_nil : compile st (directed f [] ++ ['\n']) = .ok [] := by
  have hscan := scriptScan_directed hdigits []
  rw [List.nil_append, scriptScan_blank (by decide), scriptScan_nil] at hscan
  rw [compile_eq, scanScript_eq, hscan]
  change ((Scope.root st).exec st _ [_]).map _ = _
  rw [Scope.exec_cons, Scope.step]
  dsimp only
  rw [padWidth_digits hdigits (size?_of_allDigits hdigits hlt)]
  rfl

omit hlt in
/-- The line of a number without digits, in hexadecimal. -/
theorem compile_directed_mark : compile st (directed f ['#'] ++ ['\n']) =
    .error ⟨1, .unexpected ['#'] (f.type.length + 3)⟩ := by
  have hscan := scriptScan_directed hdigits ['#']
  rw [List.singleton_append, scriptScan_mismatch (next_mark [])] at hscan
  rw [compile_eq, scanScript_eq, hscan]
  rfl

variable {bs : Bytes} (hbs : bs.length = valueOf 10 f.type)

include hbs

/-- The line of bytes in hexadecimal or in binary. -/
theorem compile_unsigned {l : IntegerText} (hlexeme : IsLexeme '\n' l.kind l.text)
    (hvalue : l.value = ofBigEndian bs) : compile st (directed f l.text ++ ['\n']) =
      if Nat.pow 2 128 ≤ ofBigEndian bs then .error ⟨1, .invalidNumber l.text⟩ else .ok bs := by
  rw [compile_directed st hdigits hlt hlexeme, ← hbs, l.bytes_of_unsigned hvalue]
  split <;> rfl

theorem compile_decimal_line {s : Text} (hs : signedText bs = .ok s) :
    compile st (directed f s ++ ['\n']) = .ok bs := by
  obtain ⟨l, rfl, hlexeme, hvalue⟩ := exists_decimal_of_bytes hs
  rw [compile_directed st hdigits hlt hlexeme, ← hbs, l.bytes_of_signed hvalue]
  rfl

theorem compile_binary_line : compile st (directed f (binaryBytes bs) ++ ['\n']) =
    if Nat.pow 2 128 ≤ ofBigEndian bs then .error ⟨1, .invalidNumber (binaryBytes bs)⟩
    else .ok bs := by
  by_cases hne : bs = []
  · subst hne
    exact compile_directed_nil st hdigits hlt
  · obtain ⟨l, htext, hlexeme, hvalue⟩ := exists_binary_of_bytes hne
    rw [← htext]
    exact compile_unsigned st hdigits hlt hbs hlexeme hvalue

theorem compile_hex_line : compile st (directed f ('#' :: hexBytes bs) ++ ['\n']) =
    if bs = [] then .error ⟨1, .unexpected ['#'] (f.type.length + 3)⟩
    else if Nat.pow 2 128 ≤ ofBigEndian bs then .error ⟨1, .invalidNumber ('#' :: hexBytes bs)⟩
    else .ok bs := by
  by_cases hne : bs = []
  · subst hne
    exact compile_directed_mark st hdigits
  · obtain ⟨l, htext, hlexeme, hvalue⟩ := exists_hex_of_bytes hne
    rw [if_neg hne, ← htext]
    exact compile_unsigned st hdigits hlt hbs hlexeme hvalue

end Directed

/-! ## Listings of one number -/

/-- The spec of a number: a width in digits and the letter of a format. -/
def numberSpec (width : Text) (letter : Char) : Text := '[' :: (width ++ [']', letter])

theorem fields_numberSpec {width : Text} (hwidth : width.allDigits = true) {letter : Char}
    {format : FieldFormat} (hletter : FieldFormat.ofChar? letter = some format) {l : FieldList}
    (hl : l.toLines = [numberSpec width letter]) :
    l.fields = [⟨width, .once, format, none⟩] := by
  have hname := Field.isTypeName_of_allDigits hwidth
  have hnone : Field.ofLine [letter] = [] := by
    rw [Field.ofLine]
    split
    · rfl
    · rw [Field.ofLine]
  rw [FieldList.fields, hl, List.flatMap_singleton, numberSpec,
    Field.ofLine_brackets hname.bracket, Field.ofParts_letter hname hletter, hnone]
  rfl

section Number

variable {st : Settings} {layout : Layout} {width : Text} (hwidth : width.allDigits = true)
  (hlt : valueOf 10 width < Nat.pow 2 64) (hsizes : layout.sizes.lookup width = none)
  {bs : Bytes} (hbs : bs.length = valueOf 10 width) {l : Listing}

include hwidth hlt hsizes hbs

/-- The listing of a number is one line. -/
theorem exists_valueText {letter : Char} {format : FieldFormat}
    (hletter : FieldFormat.ofChar? letter = some format) (htext : format ≠ .text)
    (hformat : layout.format.toLines = [numberSpec width letter])
    (hl : decompile st layout bs = .ok l) :
    ∃ s, valueText layout ⟨width, .once, format, none⟩ bs = .ok s ∧ l.text = s ++ ['\n'] := by
  have hfields := fields_numberSpec hwidth hletter hformat
  have hresolve := @resolveWidth_of_allDigits layout ⟨width, .once, format, none⟩ hwidth hsizes hlt
  rw [← hbs] at hresolve
  rw [decompile_value rfl htext hresolve hfields] at hl
  obtain ⟨s, hs, rfl⟩ := exists_of_map_eq_ok hl
  exact ⟨s, mapError_eq_ok_iff.mp hs, by simp [Listing.text, Listing.body, Line.render]⟩

/-- **A number by itself.** A listing of one number in decimal compiles to the bytes of the number.
In hexadecimal and in binary it does so unless the number is too large for a script, which is
refused; and no bytes in hexadecimal are a lone number sign, which is no token. -/
theorem compile_listing_of_number {letter : Char} (hletter : letter ∈ ['d', 'h', 'x', 'b'])
    (hformat : layout.format.toLines = [numberSpec width letter])
    (hl : decompile st layout bs = .ok l) :
    compile st l.text =
      if letter ∈ ['h', 'x'] ∧ bs = [] then .error ⟨1, .unexpected ['#'] (width.length + 3)⟩
      else if letter ≠ 'd' ∧ Nat.pow 2 128 ≤ ofBigEndian bs then
        .error ⟨1, .invalidNumber (if letter = 'b' then binaryBytes bs else '#' :: hexBytes bs)⟩
      else .ok bs := by
  simp only [List.mem_cons, List.not_mem_nil, or_false] at hletter
  have hread := fun format (hof : FieldFormat.ofChar? letter = some format) htext =>
    exists_valueText hwidth hlt hsizes hbs hof htext hformat hl
  have hhex : FieldFormat.ofChar? letter = some .hex → compile st l.text =
      if bs = [] then .error ⟨1, .unexpected ['#'] (width.length + 3)⟩
      else if Nat.pow 2 128 ≤ ofBigEndian bs then .error ⟨1, .invalidNumber ('#' :: hexBytes bs)⟩
      else .ok bs := by
    intro hof
    obtain ⟨s, hs, htext⟩ := hread .hex hof nofun
    obtain rfl := Except.ok.inj hs
    rw [htext]
    exact compile_hex_line (f := ⟨width, .once, .hex, none⟩) st hwidth hlt hbs
  rcases hletter with rfl | rfl | rfl | rfl
  · obtain ⟨s, hs, htext⟩ := hread .decimal rfl nofun
    obtain ⟨literal, hliteral, rfl⟩ := exists_of_map_eq_ok hs
    rw [htext, if_neg (by simp), if_neg (by simp)]
    exact compile_decimal_line st hwidth hlt hbs hliteral
  · simpa using hhex rfl
  · simpa using hhex rfl
  · obtain ⟨s, hs, htext⟩ := hread .binary rfl nofun
    obtain rfl := Except.ok.inj hs
    rw [htext, if_neg (by simp)]
    simpa using compile_binary_line (f := ⟨width, .once, .binary, none⟩) st hwidth hlt hbs

end Number

/-- A layout of one number. -/
def numberLayout (width : Text) (letter : Char) : Layout where
  format := .lines [numberSpec width letter]
  sizes_dictionary := isDictionary_nil
  structs_dictionary := isDictionary_nil
  defines_dictionary := isDictionary_nil
  sizes_lt := Layout.sizes_lt_nil

/-- Seventeen bytes of a number with its sign, of one of 128 bits and of one of 129, and none. -/
theorem compile_listing_of_number_edges :
    let width : Text := "17".toList
    let least : Bytes := 0xff :: 0x80 :: List.replicate 15 0
    let greatest : Bytes := 0 :: List.replicate 16 0xff
    let large : Bytes := 1 :: List.replicate 16 0
    (∃ l, decompile {} (numberLayout width 'd') least = .ok l ∧ compile {} l.text = .ok least) ∧
    (∃ l, decompile {} (numberLayout width 'x') greatest = .ok l ∧
      compile {} l.text = .ok greatest) ∧
    (∃ l, decompile {} (numberLayout width 'b') large = .ok l ∧
      compile {} l.text = .error ⟨1, .invalidNumber (binaryBytes large)⟩) ∧
    (∃ l, decompile {} (numberLayout ['0'] 'b') [] = .ok l ∧ compile {} l.text = .ok []) ∧
    ∃ l, decompile {} (numberLayout ['0'] 'h') [] = .ok l ∧
      compile {} l.text = .error ⟨1, .unexpected ['#'] 4⟩ := by
  intro width least greatest large
  obtain ⟨l, hleast⟩ := exists_of_isOk (x := decompile {} (numberLayout width 'd') least)
    (by decide +kernel)
  obtain ⟨m, hgreatest⟩ := exists_of_isOk (x := decompile {} (numberLayout width 'x') greatest)
    (by decide +kernel)
  obtain ⟨n, hlarge⟩ := exists_of_isOk (x := decompile {} (numberLayout width 'b') large)
    (by decide +kernel)
  obtain ⟨o, hnone⟩ := exists_of_isOk (x := decompile {} (numberLayout ['0'] 'b') [])
    (by decide +kernel)
  obtain ⟨p, hmark⟩ := exists_of_isOk (x := decompile {} (numberLayout ['0'] 'h') [])
    (by decide +kernel)
  have seventeen : width.allDigits = true ∧ valueOf 10 width < Nat.pow 2 64 := by decide
  have zero : Text.allDigits ['0'] = true ∧ valueOf 10 ['0'] < Nat.pow 2 64 := by decide
  refine ⟨⟨l, hleast, ?_⟩, ⟨m, hgreatest, ?_⟩, ⟨n, hlarge, ?_⟩, ⟨o, hnone, ?_⟩, ⟨p, hmark, ?_⟩⟩
  · exact (compile_listing_of_number seventeen.1 seventeen.2 rfl rfl (by decide) rfl hleast).trans
      (by decide +kernel)
  · exact (compile_listing_of_number seventeen.1 seventeen.2 rfl rfl (by decide) rfl
      hgreatest).trans (by decide +kernel)
  · exact (compile_listing_of_number seventeen.1 seventeen.2 rfl rfl (by decide) rfl hlarge).trans
      (by decide +kernel)
  · exact (compile_listing_of_number zero.1 zero.2 rfl rfl (by decide) rfl hnone).trans
      (by decide +kernel)
  · exact (compile_listing_of_number zero.1 zero.2 rfl rfl (by decide) rfl hmark).trans
      (by decide +kernel)

/-- **Not every line of a number is a script by itself.** -/
theorem not_compile_listing_of_number : ¬ ∀ (st : Settings) (layout : Layout) (width : Text)
    (letter : Char) (bs : Bytes) (l : Listing), width.allDigits = true →
    valueOf 10 width < Nat.pow 2 64 → layout.sizes.lookup width = none →
    letter ∈ ['d', 'h', 'x', 'b'] → layout.format.toLines = [numberSpec width letter] →
    bs.length = valueOf 10 width → decompile st layout bs = .ok l →
    compile st l.text = .ok bs := by
  intro h
  have hlisting : decompile {} (numberLayout ['0'] 'h') [] =
      .ok ⟨[⟨0, [], "[0] #".toList⟩], 0, []⟩ := by
    decide +kernel
  have hwrong := h {} _ ['0'] 'h' [] _ (by decide) (by decide) rfl (by decide) rfl rfl hlisting
  exact absurd hwrong (by decide +kernel)

end ByteScript
