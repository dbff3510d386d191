import ByteScript.Proofs.Listing.Literals
import ByteScript.Proofs.Listing.WidthName
import ByteScript.Proofs.Number.LeastWidth
import ByteScript.Proofs.Script.Concatenation

/-!
# Integer literals at a width

An integer literal is digits of one of three radices: decimal after a sign, hexadecimal after a
number sign, or binary with spaces and underscores between the digits. After a directive it has the
bytes of the number that its digits denote, or it is refused; nothing wraps and nothing is cut off.
After a star it takes the least width that does not refuse it.

* `IntegerText`: the literals, with their `kind`, `text` and `value`;
* `IntegerText.next_text`, `IntegerText.exists_of_next`: they are the integer tokens;
* `IntegerText.bytes_eq`, `IntegerText.exists_bytes_none`: the bytes of a literal, at a width and
  without one;
* `compile_directive`, `compile_digits`: a directive and a literal;
* **`compile_integer_exact`**: the literal at a width;
* **`compile_integer_least`**: the literal after a star.
-/

namespace ByteScript

/-! ## The literals -/

/-- A digit of a binary literal. -/
def isBit (c : Char) : Bool := c == '0' || c == '1'

/-- An integer literal. -/
inductive IntegerText where
  /-- Decimal digits after a sign. -/
  | decimal (negative : Bool) (digits : Text) (isDecimal : digits.allDigits = true)
  /-- Hexadecimal digits after a number sign. -/
  | hex (digits : Text) (isHex : digits ≠ [] ∧ digits.all isHexDigit = true)
  /-- A binary digit, then binary digits, spaces and underscores. -/
  | binary (first : Char) (more : Text) (isBinary : isBit first = true ∧
      more.all (fun c => isBit c || c == ' ' || c == '_') = true)

namespace IntegerText

def kind : IntegerText → ScriptKind
  | decimal .. => .integer
  | hex .. => .hex
  | binary .. => .binary

/-- The literal as it is written. -/
def text : IntegerText → Text
  | decimal negative digits _ => (if negative then '-' else '+') :: digits
  | hex digits _ => '#' :: digits
  | binary first more _ => first :: more

/-- The number that the literal denotes. -/
def value : IntegerText → Int
  | decimal negative digits _ => if negative then -(valueOf 10 digits : Int) else valueOf 10 digits
  | hex digits _ => valueOf 16 digits
  | binary first more _ => valueOf 2 ((first :: more).filter isBit)

example : (binary '1' " 0_1 ".toList (by decide)).value = 5 := by decide

/-! ## Their tokens -/

section Token

variable (l : IntegerText)

theorem text_ne_nil : l.text ≠ [] := by
  cases l <;> exact List.cons_ne_nil _ _

theorem kind_kept : l.kind ∉ [ScriptKind.mismatch, .blank, .comment] := by
  cases l <;> simp [kind]

theorem sign_cases (negative : Bool) :
    (if negative then '-' else '+') = '+' ∨ (if negative then '-' else '+') = '-' := by
  cases negative
  exacts [Or.inl rfl, Or.inr rfl]

/-- **A literal is one token.** -/
theorem next_text : scriptTable.next l.text = (l.kind, l.text.length) := by
  cases l with
  | decimal negative digits h =>
    have := next_integer (sign_cases negative) h (r := []) rfl nofun
    rwa [List.append_nil, Nat.add_comm] at this
  | hex digits h =>
    have := next_hex h.1 (List.all_eq_true.mp h.2) (r := []) rfl
    rwa [List.append_nil, Nat.add_comm] at this
  | binary first more h =>
    have hfirst : first = '0' ∨ first = '1' := by
      simpa [isBit] using h.1
    have hpoint : '.' ∉ first :: more := by
      rw [List.mem_cons, not_or]
      refine ⟨fun hc => ?_, fun hc => absurd (List.all_eq_true.mp h.2 _ hc) (by decide)⟩
      exact absurd (hc ▸ h.1) (by decide)
    have := next_bits hfirst (List.all_eq_true.mp h.2) (r := []) rfl
      (by rw [List.append_nil]; exact float_eq_none_of_not_mem hpoint)
    rwa [List.append_nil, Nat.add_comm] at this

end Token

theorem all_of_length_takeWhile {p : Char → Bool} {s : Text}
    (h : (s.takeWhile p).length = s.length) : s.all p = true := by
  rw [← (List.takeWhile_prefix p).eq_of_length h]
  exact List.all_takeWhile

theorem exists_decimal {s : Text} (h : Pattern.integer s = some s.length) :
    ∃ negative digits hd, (decimal negative digits hd).text = s := by
  simp only [Pattern.integer] at h
  split at h
  · cases h
  · rename_i hne
    cases s with
    | nil => exact absurd (Or.inl rfl) hne
    | cons c s =>
      have hlength : digitsLength s = s.length := by simpa [Nat.add_comm] using h
      rw [List.drop_succ_cons, List.drop_zero, hlength, not_or] at hne
      have hdigits := allDigits_iff.mpr ⟨mt List.length_eq_zero_iff.mpr hne.2,
        List.all_eq_true.mp (all_of_length_takeWhile hlength)⟩
      have hsign : c = '-' ∨ c = '+' := by
        unfold signLength at hne
        split at hne
        · rename_i he
          exact Or.inr (List.cons.inj he).1
        · rename_i he
          exact Or.inl (List.cons.inj he).1
        · exact absurd rfl hne.1
      rcases hsign with rfl | rfl
      · exact ⟨true, s, hdigits, rfl⟩
      · exact ⟨false, s, hdigits, rfl⟩

theorem exists_hex {s : Text} (h : Pattern.hex s = some s.length) :
    ∃ digits hd, (hex digits hd).text = s := by
  unfold Pattern.hex at h
  split at h
  · rename_i s
    dsimp only at h
    split at h
    · cases h
    · rename_i hne
      have hlength : (s.takeWhile isHexDigit).length = s.length := by
        simpa [Nat.add_comm] using h
      rw [hlength] at hne
      exact ⟨s, ⟨mt List.length_eq_zero_iff.mpr hne, all_of_length_takeWhile hlength⟩, rfl⟩
  · cases h

theorem exists_binary {s : Text} (h : Pattern.binary s = some s.length) :
    ∃ first more hb, (binary first more hb).text = s := by
  cases s with
  | nil => cases h
  | cons c s =>
    rw [Pattern.binary] at h
    split at h
    · rename_i hc
      rw [Option.some.injEq, List.length_cons, Nat.add_comm, Nat.add_right_cancel_iff] at h
      exact ⟨c, s, ⟨hc, all_of_length_takeWhile h⟩, rfl⟩
    · cases h

/-- **Every integer token is a literal.** -/
theorem exists_of_next {k : ScriptKind} (hk : k ∈ [ScriptKind.integer, .hex, .binary]) {s : Text}
    (h : scriptTable.next s = (k, s.length)) : ∃ l : IntegerText, l.kind = k ∧ l.text = s := by
  simp only [List.mem_cons, List.not_mem_nil, or_false] at hk
  rcases hk with rfl | rfl | rfl
  · obtain ⟨_, _, _, htext⟩ := exists_decimal (match_of_next (List.mem_iff_getElem?.mpr ⟨4, rfl⟩) h)
    exact ⟨_, rfl, htext⟩
  · obtain ⟨_, _, htext⟩ := exists_hex (match_of_next (List.mem_iff_getElem?.mpr ⟨5, rfl⟩) h)
    exact ⟨_, rfl, htext⟩
  · obtain ⟨_, _, _, htext⟩ := exists_binary (match_of_next (List.mem_iff_getElem?.mpr ⟨6, rfl⟩) h)
    exact ⟨_, rfl, htext⟩

end IntegerText

/-! ## Their bytes -/

namespace IntegerText

/-- The bytes of a literal where a width is active or none. -/
def bytes (pad : Option Nat) : IntegerText → Except CompileFault Bytes
  | l@(decimal negative digits _) => integerBytes pad l.text 10 digits negative
  | l@(hex digits _) => integerBytes pad l.text 16 digits false
  | l@(binary first more _) => integerBytes pad l.text 2 ((first :: more).filter isBit) false

variable (l : IntegerText)

theorem step_text (st : Settings) (define : Nat → Text → Except CompileError Bytes) (scope : Scope)
    (start line : Nat) : scope.step st define ⟨l.kind, l.text, start, line⟩ =
      ((l.bytes scope.pad).mapError (CompileError.mk line)).map fun bs => (scope, bs) := by
  cases l with
  | decimal negative digits h => cases negative <;> rfl
  | hex digits h => rfl
  | binary first more h => rfl

/-- The bytes of a literal are those of a numeral with its sign. -/
theorem exists_numeral : ∃ (radix : Nat) (digits : Text) (negative : Bool), radix ≤ 36 ∧
    IsNumeral radix digits ∧
    l.value = (if negative then -(valueOf radix digits : Int) else valueOf radix digits) ∧
    ∀ pad, l.bytes pad = integerBytes pad l.text radix digits negative := by
  cases l with
  | decimal negative digits h =>
    exact ⟨10, digits, negative, by decide, isNumeral_of_allDigits h, rfl, fun _ => rfl⟩
  | hex digits h =>
    exact ⟨16, digits, false, by decide,
      ⟨h.1, fun c hc => digitValue_lt_sixteen_iff.mpr (List.all_eq_true.mp h.2 c hc)⟩, rfl,
      fun _ => rfl⟩
  | binary first more h =>
    refine ⟨2, (first :: more).filter isBit, false, by decide, ⟨?_, fun c hc => ?_⟩, rfl,
      fun _ => rfl⟩
    · rw [List.filter_cons_of_pos h.1]
      exact List.cons_ne_nil _ _
    · have hbit : c = '0' ∨ c = '1' := by simpa [isBit] using (List.mem_filter.mp hc).2
      rcases hbit with rfl | rfl <;> decide

/-- **The bytes of a literal at a width.** -/
theorem bytes_eq (w : Nat) : l.bytes (some w) =
    if Nat.pow 2 128 ≤ l.value.natAbs then .error (.invalidNumber l.text)
    else if FitsWidth w l.value then .ok (bigEndian w (l.value % (Nat.pow 2 (8 * w) : Nat)).toNat)
    else .error (.overflow l.text w) := by
  obtain ⟨radix, digits, negative, hradix, hdigits, hvalue, hbytes⟩ := l.exists_numeral
  rw [hbytes, integerBytes_eq hradix hdigits hvalue]

/-- **Without a width a literal takes the least one**, from one byte on, that holds its number. -/
theorem exists_bytes_none (hl : l.value.natAbs < Nat.pow 2 128) : ∃ n, 1 ≤ n ∧ n ≤ 17 ∧
    (∀ w, 1 ≤ w → (n ≤ w ↔ FitsWidth w l.value)) ∧ l.bytes none = l.bytes (some n) := by
  obtain ⟨radix, digits, negative, hradix, hdigits, hvalue, hbytes⟩ := l.exists_numeral
  have habs : l.value.natAbs = valueOf radix digits := by
    rw [hvalue]
    split <;> omega
  have hlt : valueOf radix digits < Nat.pow 2 128 := habs ▸ hl
  obtain ⟨x, hread, -, hx⟩ := SignedMagnitude.exists_read?_value hradix hdigits hlt negative
  refine ⟨x.minimalWidth, x.one_le_minimalWidth, x.minimalWidth_le, fun w hw => ?_, ?_⟩
  · rw [x.minimalWidth_le_iff hw, hx, hvalue]
  · rw [hbytes, hbytes, integerBytes, integerBytes, hread]
    rfl

end IntegerText

/-! ## After a directive -/

/-- The bytes of a literal are those at the width that the directive before it sets. -/
theorem exec_directive (st : Settings) (define : Nat → Text → Except CompileError Bytes)
    (scope : Scope) (directive : Text) (l : IntegerText) (start start' line : Nat) :
    (scope.exec st define [⟨.pad, directive, start, line⟩, ⟨l.kind, l.text, start', line⟩]).map
      Prod.snd = ((scope.padWidth directive).bind l.bytes).mapError (CompileError.mk line) := by
  rw [Scope.exec_cons, Scope.step]
  dsimp only
  -- the directive is wrong, or the literal is read at the width that it sets
  cases scope.padWidth directive with
  | error fault => rfl
  | ok pad =>
    change (((Scope.exec st _ _ [_]).map _).map Prod.snd) = _
    rw [Scope.exec_cons, l.step_text]
    change _ = (l.bytes pad).mapError (CompileError.mk line)
    dsimp only
    cases l.bytes pad with
    | error fault => rfl
    | ok bs => exact congrArg Except.ok (List.append_nil bs)

/-- **A directive and a literal**, on one line. -/
theorem compile_directive (st : Settings) {spec : Text} (hclose : ']' ∉ spec) (hline : '\n' ∉ spec)
    (l : IntegerText) : compile st ('[' :: (spec ++ ']' :: l.text)) =
      (((Scope.root st).padWidth ('[' :: (spec ++ [']']))).bind l.bytes).mapError
        (CompileError.mk 1) := by
  have hdirective : '[' :: (spec ++ ']' :: l.text) = '[' :: (spec ++ [']']) ++ l.text := by simp
  have hnewlines : Text.newlines ('[' :: (spec ++ [']'])) = 0 := by
    simp [Text.newlines, List.count_eq_zero_of_not_mem, hline]
  have hnext : scriptTable.next ('[' :: (spec ++ [']']) ++ l.text) =
      (.pad, ('[' :: (spec ++ [']'])).length) := by
    rw [← hdirective, next_pad hclose]
    simp
  have hscan := scriptScan_token (List.cons_ne_nil _ _) hnext (by decide) 0 1
  rw [scriptScan_single l.text_ne_nil l.kind_kept l.next_text, hnewlines] at hscan
  rw [compile_eq, hdirective, scanScript_eq, hscan]
  exact exec_directive st _ _ _ l _ _ 1

/-- **An integer literal at a width is exact**: it is refused as a number from `2 ^ 128` on, it is
its big-endian form modulo the width if the width holds it, signed or unsigned, and else it is
refused for the width. A width of more than 64 bits is refused itself. -/
theorem compile_integer_exact (st : Settings) {width : Text} (hwidth : width.allDigits = true)
    {w : Nat} (hw : valueOf 10 width = w) (l : IntegerText) :
    compile st ('[' :: (width ++ ']' :: l.text)) =
      if Nat.pow 2 64 ≤ w then .error ⟨1, .invalidNumber width⟩
      else if Nat.pow 2 128 ≤ l.value.natAbs then .error ⟨1, .invalidNumber l.text⟩
      else if FitsWidth w l.value then
        .ok (bigEndian w (l.value % (Nat.pow 2 (8 * w) : Nat)).toNat)
      else .error ⟨1, .overflow l.text w⟩ := by
  subst hw
  have hdigits := (allDigits_iff.mp hwidth).2
  have hnot : ∀ c, c.isDigit = false → c ∉ width := fun c hc hmem =>
    Bool.false_ne_true (hc.symm.trans (hdigits c hmem))
  rw [compile_directive st (hnot _ (by decide)) (hnot _ (by decide)), padWidth_of_allDigits hwidth]
  by_cases hle : Nat.pow 2 64 ≤ valueOf 10 width
  · rw [size?_of_allDigits_of_le hwidth hle, if_pos hle]
    rfl
  · rw [size?_of_allDigits hwidth (Nat.not_le.mp hle), if_neg hle]
    change (l.bytes (some _)).mapError _ = _
    rw [l.bytes_eq]
    split
    · rfl
    · split <;> rfl

/-- The least number of 16 bytes and the one below it, a number of 128 bits with its sign in 17
bytes, the least number of 129 bits, and binary digits apart from each other. -/
theorem compile_integer_exact_wide :
    let half : Text := "170141183460469231731687303715884105728".toList
    let more : Text := "170141183460469231731687303715884105729".toList
    let whole : Text := "340282366920938463463374607431768211455".toList
    let huge : Text := '1' :: List.replicate 32 '0'
    compile {} ("[16]-".toList ++ half) = .ok (0x80 :: List.replicate 15 0) ∧
    compile {} ("[16]-".toList ++ more) = .error ⟨1, .overflow ('-' :: more) 16⟩ ∧
    compile {} ("[017]-".toList ++ whole) = .ok (0xff :: (List.replicate 15 0 ++ [1])) ∧
    compile {} ("[99]#".toList ++ huge) = .error ⟨1, .invalidNumber ('#' :: huge)⟩ ∧
    compile {} "[0]1 0_".toList = .error ⟨1, .overflow "1 0_".toList 0⟩ := by
  intro half more whole huge
  have hhalf := @compile_integer_exact {} "16".toList (by decide) 16 rfl
    (.decimal true half (by decide))
  have hmore := @compile_integer_exact {} "16".toList (by decide) 16 rfl
    (.decimal true more (by decide))
  have hwhole := @compile_integer_exact {} "017".toList (by decide) 17 rfl
    (.decimal true whole (by decide))
  have hhuge := @compile_integer_exact {} "99".toList (by decide) 99 rfl
    (.hex huge (by decide))
  have hbits := @compile_integer_exact {} "0".toList (by decide) 0 rfl
    (.binary '1' " 0_".toList (by decide))
  exact ⟨hhalf.trans (by decide +kernel), hmore.trans (by decide +kernel),
    hwhole.trans (by decide +kernel), hhuge.trans (by decide +kernel),
    hbits.trans (by decide +kernel)⟩

/-! ## At the least width -/

/-- Digits in a directive, for a number of at most 64 bits, are the width of the literal. -/
theorem compile_digits (st : Settings) {width : Text} (hwidth : width.allDigits = true)
    (hlt : valueOf 10 width < Nat.pow 2 64) (l : IntegerText) :
    compile st ('[' :: (width ++ ']' :: l.text)) =
      (l.bytes (some (valueOf 10 width))).mapError (CompileError.mk 1) := by
  rw [compile_directive st (not_mem_of_allDigits hwidth (by decide))
    (not_mem_of_allDigits hwidth (by decide)), padWidth_digits hwidth (size?_of_allDigits hwidth hlt)]
  rfl

/-- **An integer literal of at most 128 bits always has bytes under a star**: those that it has at
the least width, from one byte on, at which it is not refused. No such literal is wider than 17
bytes. -/
theorem compile_integer_least (st : Settings) (l : IntegerText)
    (hl : l.value.natAbs < Nat.pow 2 128) : ∃ n bs, 1 ≤ n ∧ n ≤ 17 ∧ bs.length = n ∧
      compile st ("[*]".toList ++ l.text) = .ok bs ∧
      ∀ width : Text, width.allDigits = true → 1 ≤ valueOf 10 width →
        (valueOf 10 width = n → compile st ('[' :: (width ++ ']' :: l.text)) = .ok bs) ∧
        (valueOf 10 width < n → compile st ('[' :: (width ++ ']' :: l.text)) =
          .error ⟨1, .overflow l.text (valueOf 10 width)⟩) := by
  obtain ⟨n, hone, hle, hleast, hbytes⟩ := l.exists_bytes_none hl
  have hnumber : ¬ Nat.pow 2 128 ≤ l.value.natAbs := Nat.not_le.mpr hl
  obtain ⟨bs, hlength, hvalue⟩ : ∃ bs : Bytes, bs.length = n ∧ l.bytes (some n) = .ok bs := by
    rw [l.bytes_eq, if_neg hnumber, if_pos ((hleast n hone).mp (Nat.le_refl n))]
    exact ⟨_, length_bigEndian n _, rfl⟩
  refine ⟨n, bs, hone, hle, hlength, ?_, fun width hwidth hpos => ⟨?_, ?_⟩⟩
  · have hstar := @compile_directive st ['*'] (by decide) (by decide) l
    change compile st ("[*]".toList ++ l.text) = (l.bytes none).mapError _ at hstar
    rw [hstar, hbytes, hvalue]
    rfl
  · rintro rfl
    rw [compile_digits st hwidth (Nat.lt_of_le_of_lt hle (by decide)), hvalue]
    rfl
  · intro hlt
    have hsmall : valueOf 10 width < Nat.pow 2 64 :=
      Nat.lt_of_lt_of_le hlt (Nat.le_trans hle (by decide))
    -- the width is below the least one, so it does not hold the number
    have hfits : ¬ FitsWidth (valueOf 10 width) l.value :=
      mt (hleast _ hpos).mpr (Nat.not_le.mpr hlt)
    rw [compile_digits st hwidth hsmall, l.bytes_eq, if_neg hnumber, if_neg hfits]
    rfl

/-- The least number below those of one byte, and the greatest magnitude with a sign, which takes
the seventeenth byte for it. -/
theorem compile_integer_least_edges :
    let whole : Text := "340282366920938463463374607431768211455".toList
    (∃ bs, compile {} "[*]-129".toList = .ok bs ∧ compile {} "[2]-129".toList = .ok bs ∧
      compile {} "[01]-129".toList = .error ⟨1, .overflow "-129".toList 1⟩) ∧
    ∃ bs, compile {} ("[*]-".toList ++ whole) = .ok bs ∧
      compile {} ("[17]-".toList ++ whole) = .ok bs ∧
      compile {} ("[16]-".toList ++ whole) = .error ⟨1, .overflow ('-' :: whole) 16⟩ := by
  intro whole
  obtain ⟨n, bs, -, -, hlength, hstar, hwidth⟩ :=
    compile_integer_least {} (.decimal true "129".toList (by decide)) (by decide)
  obtain ⟨m, cs, -, -, hsize, hmost, hwide⟩ :=
    compile_integer_least {} (.decimal true whole (by decide)) (by decide +kernel)
  have hbs : compile {} "[*]-129".toList = .ok [0xff, 0x7f] := by decide +kernel
  have hcs : compile {} ("[*]-".toList ++ whole) =
      .ok (0xff :: (List.replicate 15 0 ++ [1])) := by decide +kernel
  obtain rfl := Except.ok.inj (hbs.symm.trans hstar)
  obtain rfl := Except.ok.inj (hcs.symm.trans hmost)
  obtain rfl := hlength
  obtain rfl := hsize
  exact ⟨⟨_, hstar, (hwidth "2".toList (by decide) (by decide)).1 rfl,
      (hwidth "01".toList (by decide) (by decide)).2 (by decide)⟩,
    ⟨_, hmost, (hwide "17".toList (by decide) (by decide)).1 rfl,
      (hwide "16".toList (by decide) (by decide)).2 (by decide)⟩⟩

end ByteScript
