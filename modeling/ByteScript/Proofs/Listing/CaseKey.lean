import ByteScript.Proofs.Listing.SingleValue

/-!
# Hexadecimal keys of cases

The key of a case may be the hexadecimal digits of bytes, as a listing prints them. It is read as
the unsigned number of the bytes, and what is kept of the bytes for the switch is their signed
number, so the two agree on the bytes without their leading bit. The same digits as the key of a
name are compared with the unsigned number and stand for the bytes in any case.

* `hasValue_hexBytes`, `caseKey?_hexBytes`: the digits of bytes in a key;
* `caseTable`, `selectCase_caseTable`: the table of one case;
* `caseLine`, `fields_caseLine`: bytes that are kept and their case;
* **`decompile_case`**: the listing of these.
-/

namespace ByteScript

/-! ## Values of keys -/

section Key

variable {bs : Bytes} (hlen : bs.length ≤ 16)

include hlen

theorem signedValue?_of_length_le : signedValue? bs = some (wordValue bs) := by
  have hdrop : bs.length - 16 = 0 := Nat.sub_eq_zero_of_le hlen
  simp [signedValue?, hdrop]

variable (hne : bs ≠ [])

include hne

theorem unsigned?_hexBytes : unsigned? 128 16 (hexBytes bs) = some (ofBigEndian bs) := by
  have hlt : ofBigEndian bs < Nat.pow 2 128 :=
    Nat.lt_of_lt_of_le (ofBigEndian_lt bs) (Nat.le_of_dvd (by decide) (pow_256_dvd hlen))
  rw [← valueOf_hexBytes bs] at hlt ⊢
  exact unsigned?_of_isNumeral (by decide) (isNumeral_hexBytes hne) hlt

/-- The digits of bytes in a key give their name to the bytes. -/
theorem hasValue_hexBytes : hasValue bs ('#' :: hexBytes bs) = true := by
  have hkey : hasValue bs ('#' :: hexBytes bs) =
      (unsignedValue? bs).any fun v => unsigned? 128 16 (hexBytes bs) == some v := rfl
  have hunsigned : unsignedValue? bs = some (ofBigEndian bs) := if_pos hlen
  simp only [hkey, hunsigned, unsigned?_hexBytes hlen hne, Option.any_some, beq_self_eq_true]

/-- A number of at most 16 bytes has 128 bits exactly if all bytes are there and the first one has
its leading bit. -/
theorem ofBigEndian_lt_half_iff :
    ofBigEndian bs < Nat.pow 2 127 ↔ ¬ (bs.length = 16 ∧ leadingBit bs = true) := by
  have hlead := leadingBit_iff bs
  by_cases hall : bs.length = 16
  · have h16 : Nat.pow 256 16 = Nat.pow 2 127 * 2 := by decide
    rw [hall, h16] at hlead
    rw [and_iff_right hall, hlead, and_iff_right hne]
    omega
  · have hsmall : Nat.pow 256 bs.length ≤ Nat.pow 2 127 :=
      (Nat.pow_le_pow_right (by decide) (show bs.length ≤ 15 by omega)).trans (by decide)
    exact iff_of_true (Nat.lt_of_lt_of_le (ofBigEndian_lt bs) hsmall) fun h => hall h.1

theorem caseKey?_hexBytes : caseKey? ('#' :: hexBytes bs) =
    if bs.length = 16 ∧ leadingBit bs = true then none else some (ofBigEndian bs : Int) := by
  rw [caseKey?, unsigned?_hexBytes hlen hne, Option.filter_some]
  by_cases h : bs.length = 16 ∧ leadingBit bs = true
  · rw [if_pos h, decide_eq_false (mt (ofBigEndian_lt_half_iff hlen hne).mp (not_not_intro h))]
    rfl
  · rw [if_neg h, decide_eq_true ((ofBigEndian_lt_half_iff hlen hne).mpr h)]
    rfl

end Key

/-! ## Tables of one case -/

/-- The table of the case of some bytes. -/
def caseTable (bs : Bytes) (name : Text) : Text := '#' :: (hexBytes bs ++ '=' :: name)

section Table

variable {bs : Bytes} {name : Text} (hname : Field.IsTypeName name)

theorem isBlank_of_isHexDigit {c : Char} (h : isHexDigit c = true) : isBlank c = false := by
  rw [Bool.eq_false_iff, Ne, isBlank_iff]
  rw [isHexDigit_iff] at h
  omega

theorem not_mem_hexBytes (bs : Bytes) {c : Char} (hc : isHexDigit c = false) : c ∉ hexBytes bs :=
  fun h => Bool.false_ne_true (hc.symm.trans (isHexDigit_of_mem_hexBytes h))

theorem not_mem_caseTable {c : Char} (hc : isHexDigit c = false) (hmark : c ≠ '#') (heq : c ≠ '=')
    (hnot : c ∉ name) : c ∉ caseTable bs name := by
  have hdigits := not_mem_hexBytes bs hc
  simp only [caseTable, List.mem_cons, List.mem_append, not_or]
  exact ⟨hmark, hdigits, heq, hnot⟩

include hname

theorem isTypeName_caseTable : Field.IsTypeName (caseTable bs name) where
  trim := by
    have hend : Text.trimEnd ('=' :: name) = '=' :: name := by
      rw [Text.trimEnd_cons, Text.trimEnd_of_trim hname.trim]
      split
      · rename_i hnil
        rw [hnil]
        rfl
      · rfl
    rw [Text.trim, Text.trimStart_of_head rfl]
    exact Text.trimEnd_append ('#' :: hexBytes bs) hend (List.cons_ne_nil _ _)
  colon := not_mem_caseTable (by decide) (by decide) (by decide) hname.colon
  bracket := not_mem_caseTable (by decide) (by decide) (by decide) hname.bracket

/-- The structure that the table selects where the signed value of the bytes is kept. -/
theorem selectCase_caseTable (hcomma : ',' ∉ name) (hlen : bs.length ≤ 16) (hne : bs ≠ [])
    {layout : Layout} {fields : FieldList} (hstruct : layout.structs.lookup name = some fields)
    {captures : Captures} {key : Text} (hkey : captures.lookup key = some (wordValue bs)) :
    selectCase layout captures ⟨caseTable bs name, .once, .switch, some key⟩ =
      if leadingBit bs = true then
        .error (if bs.length = 16 then .badCase (caseTable bs name) else .noCase (wordValue bs))
      else .ok fields := by
  have hentries : (caseTable bs name).splitOn ',' = [caseTable bs name] :=
    List.splitOn_eq_singleton (not_mem_caseTable (by decide) (by decide) (by decide) hcomma)
  have hcut : Text.cut? '=' (caseTable bs name) = some ('#' :: hexBytes bs, name) := by
    refine Text.cut?_append '=' (s := '#' :: hexBytes bs) ?_ name
    rw [List.mem_cons, not_or]
    exact ⟨by decide, not_mem_hexBytes bs (by decide)⟩
  have hdigits : Text.trim ('#' :: hexBytes bs) = '#' :: hexBytes bs := by
    refine trim_eq_self fun c hc => ?_
    rcases List.mem_cons.mp hc with rfl | hc
    · rfl
    · exact isBlank_of_isHexDigit (isHexDigit_of_mem_hexBytes hc)
  have hselect : selectCase layout captures ⟨caseTable bs name, .once, .switch, some key⟩ =
      selectEntry layout (wordValue bs) [caseTable bs name] := by
    simp only [selectCase, hkey, hentries]
  rw [hselect, selectEntry]
  simp only [hcut, hdigits, caseKey?_hexBytes hlen hne, hname.trim, hstruct]
  have hword : wordValue bs = if leadingBit bs = true then
      (ofBigEndian bs : Int) - Nat.pow 256 bs.length else ofBigEndian bs := rfl
  by_cases hlead : leadingBit bs = true
  · rw [if_pos hlead]
    by_cases hall : bs.length = 16
    · rw [if_pos ⟨hall, hlead⟩, if_pos hall]
    · have hpos := pow_256_pos bs.length
      rw [if_pos hlead] at hword
      have hneq : (ofBigEndian bs : Int) ≠ wordValue bs := by omega
      rw [if_neg fun h => hall h.1, if_neg hall]
      simp only [if_neg hneq, selectEntry]
  · rw [if_neg hlead] at hword
    rw [if_neg fun h => hlead h.2, if_neg hlead]
    simp only [if_pos hword.symm]

end Table

/-! ## Bytes and their case -/

/-- A name of a capture. -/
def IsCaptureName (key : Text) : Prop := key ≠ [] ∧ ∀ c ∈ key, Field.isCaptureChar c = true

/-- Bytes in hexadecimal that are kept, and the case of these bytes. -/
def caseLine (width key : Text) (bs : Bytes) (name : Text) : Text :=
  '[' :: (width ++ ']' :: 'h' :: '$' :: (key ++ ' ' ::
    '[' :: (caseTable bs name ++ ']' :: '?' :: '$' :: key)))

/-- The field of the bytes. -/
def tagField (width key : Text) : Field := ⟨width, .once, .hex, some key⟩

/-- The field of their case. -/
def caseField (key : Text) (bs : Bytes) (name : Text) : Field :=
  ⟨caseTable bs name, .once, .switch, some key⟩

theorem captureAt_append {key : Text} (hkey : IsCaptureName key) {r : Text}
    (hr : r.head?.all (fun c => !Field.isCaptureChar c) = true) :
    Field.captureAt ('$' :: (key ++ r)) = some key := by
  have hname : (key ++ r).takeWhile Field.isCaptureChar = key := takeWhile_run hkey.2 hr
  have hstart : ('$' :: (key ++ r)).dropWhile isBlank = '$' :: (key ++ r) := rfl
  simp only [Field.captureAt, hstart, hname, if_neg hkey.1]

theorem fields_caseLine {width key name : Text} {bs : Bytes} (hwidth : width.allDigits = true)
    (hkey : IsCaptureName key) (hname : Field.IsTypeName name) {l : FieldList}
    (hl : l.toLines = [caseLine width key bs name]) :
    l.fields = [tagField width key, caseField key bs name] := by
  have htype := Field.isTypeName_of_allDigits hwidth
  have htable := @isTypeName_caseTable bs name hname
  have hhex : FieldFormat.ofChar? 'h' = some .hex := rfl
  have hswitch : FieldFormat.ofChar? '?' = some .switch := rfl
  have hopen : '[' ∉ key := fun h => Bool.false_ne_true (hkey.2 _ h)
  have htag (r : Text) : Field.captureAt ('$' :: (key ++ ' ' :: r)) = some key :=
    captureAt_append hkey rfl
  have hcase : Field.captureAt ('$' :: key) = some key := by
    have := captureAt_append hkey (r := []) rfl
    rwa [List.append_nil] at this
  have hbetween (r : Text) :
      Field.ofLine ('h' :: '$' :: (key ++ ' ' :: r)) = Field.ofLine r := by
    have := Field.ofLine_append (s := 'h' :: '$' :: (key ++ [' '])) (by simp [hopen]) r
    simpa using this
  have hend : Field.ofLine ('?' :: '$' :: key) = [] := by
    have := Field.ofLine_append (s := '?' :: '$' :: key) (by simp [hopen]) []
    rw [List.append_nil] at this
    rw [this, Field.ofLine]
  rw [FieldList.fields, hl, List.flatMap_singleton, caseLine, Field.ofLine_brackets htype.bracket,
    Field.ofParts_letter htype hhex, htag, hbetween, Field.ofLine_brackets htable.bracket,
    Field.ofParts_letter htable hswitch, hcase, hend]
  rfl

/-! ## Listings of a case -/

section Listing

variable {st : Settings} {layout : Layout} {width key name : Text} {bs rest : Bytes}
  {fields : FieldList}

/-- The listing of bytes in hexadecimal and of a structure behind them. -/
def caseListing (width : Text) (bs rest : Bytes) (r : Occurrence) : Listing where
  lines := ⟨0, bs, '[' :: (width ++ ']' :: ' ' :: '#' :: hexBytes bs)⟩ :: r.lines.map Line.indent
  consumed := bs.length + r.size
  leftover := rest.drop r.size

theorem resolveWidth_caseField (key : Text)
    (hsizes : layout.sizes.lookup (caseTable bs name) = none)
    (hstructs : layout.structs.lookup (caseTable bs name) = none) :
    resolveWidth layout (caseField key bs name) = .ok .switch := by
  have hsize : size? (caseTable bs name) = none := by
    have hmark : Text.allDigits (caseTable bs name) = false := rfl
    rw [size?, hmark, if_neg Bool.false_ne_true]
  have hbuiltin : builtinWidth? (caseTable bs name) = none := by
    rw [Option.eq_none_iff_forall_ne_some]
    intro n hn
    exact Bool.false_ne_true (isIdentifier_of_builtinWidth? hn).1
  simp only [resolveWidth, caseField, hsizes, hsize, hbuiltin, hstructs, Option.or_none, if_true]

/-- The bytes have a name if the digits of the bytes are the key of one. -/
theorem exists_valueText_define (hlen : bs.length ≤ 16) (hne : bs ≠ [])
    (hkeys : '#' :: hexBytes bs ∈ layout.defines.map Prod.fst) {f : Field}
    (hformat : f.format = .define) : ∃ e ∈ layout.defines, hasValue bs e.1 = true ∧
      valueText layout f bs = .ok e.2 := by
  obtain ⟨d, hd, hdigits⟩ := List.mem_map.mp hkeys
  have hsome : (layout.defines.find? fun e => hasValue bs e.1).isSome = true := by
    rw [List.find?_isSome]
    exact ⟨d, hd, hdigits ▸ hasValue_hexBytes hlen hne⟩
  obtain ⟨e, he⟩ := Option.isSome_iff_exists.mp hsome
  have hvalue := List.find?_some (p := fun e : Text × Text => hasValue bs e.1) he
  refine ⟨e, List.mem_of_find?_eq_some he, hvalue, ?_⟩
  simp only [valueText, hformat, defineName?, he, Option.map_some]

/-- **The digits of bytes as the key of a case and as the key of a name.** A case selects its
structure exactly for the bytes without their leading bit. With it their value is negative and that
of the key is not, so there is no case for them, and the key of 16 bytes is refused. As the key of a
name the same digits stand for the bytes in any case. -/
theorem decompile_case (hwidth : width.allDigits = true) (hbs : bs.length = valueOf 10 width)
    (hne : bs ≠ []) (hlen : bs.length ≤ 16) (hkey : IsCaptureName key)
    (hname : Field.IsTypeName name) (hcomma : ',' ∉ name)
    (hformat : layout.format.toLines = [caseLine width key bs name])
    (hsizes : ∀ type ∈ [width, caseTable bs name], layout.sizes.lookup type = none)
    (htable : layout.structs.lookup (caseTable bs name) = none)
    (hstruct : layout.structs.lookup name = some fields) :
    (decompile st layout (bs ++ rest) =
      if leadingBit bs = true then
        .error ⟨caseField key bs name,
          if bs.length = 16 then .badCase (caseTable bs name) else .noCase (wordValue bs)⟩
      else (structReader st layout st.maxDepth (caseField key bs name) fields rest).map
        (caseListing width bs rest)) ∧
    ('#' :: hexBytes bs ∈ layout.defines.map Prod.fst → ∀ f : Field, f.format = .define →
      ∃ e ∈ layout.defines, hasValue bs e.1 = true ∧ valueText layout f bs = .ok e.2) := by
  refine ⟨?_, fun hkeys f hf => exists_valueText_define hlen hne hkeys hf⟩
  have hfields := fields_caseLine hwidth hkey hname hformat
  have hone : resolveWidth layout (tagField width key) = .ok (.fixed bs.length) := by
    rw [hbs]
    exact resolveWidth_of_allDigits (f := tagField width key) hwidth
      (hsizes width List.mem_cons_self) (Nat.lt_of_le_of_lt (hbs ▸ hlen) (by decide))
  have hswitch := resolveWidth_caseField key (hsizes _ (by simp)) htable
  have hkept : (Captures.keep [] (tagField width key) bs).lookup key = some (wordValue bs) := by
    have hkeep : Captures.keep [] (tagField width key) bs = [(key, wordValue bs)] := by
      simp only [Captures.keep, tagField, signedValue?_of_length_le hlen]
    rw [hkeep, List.lookup_cons_self]
  have htag := @readField_value st layout (tagField width key) bs rfl nofun hone
    (structReader st layout st.maxDepth) [] 0 rest
  change _ = Except.ok _ at htag
  have hcase := @readField_switch st layout (caseField key bs name)
    (structReader st layout st.maxDepth) (Captures.keep [] (tagField width key) bs)
    ⟨bs.length, rest⟩ rfl hswitch
  rw [caseField, selectCase_caseTable hname hcomma hlen hne hstruct hkept, ← caseField] at hcase
  have hadvance : Cursor.advance ⟨0, bs ++ rest⟩ bs.length = ⟨bs.length, rest⟩ := by
    rw [Cursor.advance, List.drop_left, Nat.zero_add]
  rw [decompile, decodeWithin_eq, hfields, readFields, htag, ok_bind, readFields, hadvance, hcase]
  by_cases hlead : leadingBit bs = true
  · rw [if_pos hlead, if_pos hlead]
    rfl
  · rw [if_neg hlead, if_neg hlead]
    change (((Except.map _ (structReader st layout st.maxDepth _ fields rest)) >>= _) >>= _) >>= _ =
      _
    cases structReader st layout st.maxDepth (caseField key bs name) fields rest with
    | error e => rfl
    | ok r =>
      have hleft : (bs ++ rest).drop (bs.length + r.size) = rest.drop r.size := by
        rw [← List.drop_drop, List.drop_left]
      change Except.ok (Listing.mk (_ :: (r.lines.map Line.indent ++ [])) _
        ((bs ++ rest).drop (bs.length + r.size))) = _
      rw [List.append_nil, hleft]
      rfl

end Listing

/-- A layout of bytes and their case, a structure of one number. -/
def caseLayout (width : Text) (bs : Bytes) : Layout where
  format := .lines [caseLine width ['k'] bs ['A']]
  structs := [(['A'], .lines ["[1]d".toList])]
  defines := [('#' :: hexBytes bs, ['N'])]
  sizes_dictionary := isDictionary_nil
  structs_dictionary := List.pairwise_singleton _ _
  defines_dictionary := List.pairwise_singleton _ _
  sizes_lt := Layout.sizes_lt_nil

theorem isCaptureName_k : IsCaptureName ['k'] :=
  ⟨List.cons_ne_nil _ _, fun _ hc => List.mem_singleton.mp hc ▸ rfl⟩

theorem isTypeName_A : Field.IsTypeName ['A'] := ⟨by decide, by decide, by decide⟩

/-- The greatest byte without its leading bit has its case; the next one has none, but a name; and
the key of the least 16 bytes with a leading bit is refused. -/
theorem decompile_case_edges :
    let least : Bytes := 0x80 :: List.replicate 15 0
    decompile {} (caseLayout ['1'] [0x7f]) [0x7f, 7] =
        .ok ⟨[⟨0, [0x7f], "[1] #7f".toList⟩, ⟨1, [7], "[1] +7".toList⟩], 2, []⟩ ∧
      decompile {} (caseLayout ['1'] [0x80]) [0x80, 7] =
        .error ⟨caseField ['k'] [0x80] ['A'], .noCase (-128)⟩ ∧
      (∃ e ∈ (caseLayout ['1'] [0x80]).defines, hasValue [0x80] e.1 = true ∧
        valueText (caseLayout ['1'] [0x80]) ⟨['1'], .once, .define, none⟩ [0x80] = .ok e.2) ∧
      decompile {} (caseLayout "16".toList least) (least ++ [7]) =
        .error ⟨caseField ['k'] least ['A'], .badCase (caseTable least ['A'])⟩ := by
  intro least
  have hsmall := @decompile_case {} (caseLayout ['1'] [0x7f]) ['1'] ['k'] ['A'] [0x7f] [7] _
    (by decide) rfl (by decide) (by decide) isCaptureName_k isTypeName_A (by decide) rfl (by decide)
    (by decide) rfl
  have hlarge := @decompile_case {} (caseLayout ['1'] [0x80]) ['1'] ['k'] ['A'] [0x80] [7] _
    (by decide) rfl (by decide) (by decide) isCaptureName_k isTypeName_A (by decide) rfl (by decide)
    (by decide) rfl
  have hwide := @decompile_case {} (caseLayout "16".toList least) "16".toList ['k'] ['A'] least [7]
    _ (by decide) rfl (by decide) (by decide) isCaptureName_k isTypeName_A (by decide) rfl
    (by decide) (by decide) rfl
  exact ⟨hsmall.1.trans (by decide +kernel), hlarge.1.trans (by decide +kernel),
    hlarge.2 (by decide) _ rfl, hwide.1.trans (by decide +kernel)⟩

/-- **Not every byte has its case.** -/
theorem not_decompile_case : ¬ ∀ (st : Settings) (layout : Layout) (width key name : Text)
    (bs rest : Bytes) (fields : FieldList), width.allDigits = true →
    bs.length = valueOf 10 width → bs ≠ [] → bs.length ≤ 16 → IsCaptureName key →
    Field.IsTypeName name → ',' ∉ name →
    layout.format.toLines = [caseLine width key bs name] →
    (∀ type ∈ [width, caseTable bs name], layout.sizes.lookup type = none) →
    layout.structs.lookup (caseTable bs name) = none →
    layout.structs.lookup name = some fields →
    decompile st layout (bs ++ rest) =
      (structReader st layout st.maxDepth (caseField key bs name) fields rest).map
        (caseListing width bs rest) := by
  intro h
  have hwrong := h {} (caseLayout ['1'] [0xff]) ['1'] ['k'] ['A'] [0xff] [7] _ (by decide) rfl
    (by decide) (by decide) isCaptureName_k isTypeName_A (by decide) rfl (by decide) (by decide) rfl
  exact absurd hwrong (by decide +kernel)

end ByteScript
