import ByteScript.Proofs.Listing.HeaderReading

/-!
# Widths of a layout and widths of its header

A layout finds the width of a type by the name as it is spelled, the script of its header by the
last name that differs from it at most in case. A number under a directive that names the type is as
wide as the layout says exactly if the two find the same.

* `Layout.headerWidth?`: the width that the header binds to a type in any case;
* `integerBytes_zero`: a zero has as many bytes as the width says;
* `padWidth_header`: the width that a directive sets after the header;
* **`compile_header_directed`**: a zero under the directive, and when it has the width of the type.
-/

namespace ByteScript

/-- The width that the header binds to a type in any case: that of the last name with its letters. -/
def Layout.headerWidth? (layout : Layout) (type : Text) : Option Nat :=
  (layout.sizes.reverse.find? fun e => e.1.sameLetters type).map Prod.snd

section Widths

variable {layout : Layout}

theorem lookup_widthEntries (es : List (Text × Nat)) (s : Text) :
    (widthEntries es).lookup s.lower =
      (es.reverse.find? fun e => e.1.sameLetters s).map Prod.snd := by
  rw [widthEntries, ← List.map_reverse]
  induction es.reverse with
  | nil => rfl
  | cons e l ih =>
    rw [List.map_cons, List.lookup_cons, List.find?_cons, Text.sameLetters]
    by_cases h : e.1.lower = s.lower
    · rw [h, beq_self_eq_true]
      rfl
    · rw [beq_eq_false_iff_ne.mpr h, beq_eq_false_iff_ne.mpr (Ne.symm h)]
      exact ih

theorem headerWidth?_eq_none_iff {type : Text} :
    layout.headerWidth? type = none ↔ ∀ e ∈ layout.sizes, e.1.lower ≠ type.lower := by
  rw [Layout.headerWidth?, Option.map_eq_none_iff, List.find?_eq_none]
  simp only [List.mem_reverse, Text.sameLetters, beq_iff_eq, ne_eq]

/-- The header binds nothing to a run of digits. -/
theorem headerWidth?_of_allDigits (hnames : ∀ e ∈ layout.sizes, IsIdentifier e.1) {type : Text}
    (h : type.allDigits = true) : layout.headerWidth? type = none := by
  rw [headerWidth?_eq_none_iff]
  intro e he hlower
  have hdigits := allDigits_lower type
  rw [← hlower, allDigits_lower, (hnames e he).not_allDigits, h] at hdigits
  cases hdigits

/-- The header binds a width to every name of the layout. -/
theorem lookup_eq_none_of_headerWidth? {type : Text} (h : layout.headerWidth? type = none) :
    layout.sizes.lookup type = none := by
  cases hlook : layout.sizes.lookup type with
  | none => rfl
  | some m => exact absurd rfl (headerWidth?_eq_none_iff.mp h _ (mem_of_lookup hlook))

/-- **The width that a directive sets after the header** is the one that the header binds to the
type, else that of the layout. -/
theorem padWidth_header (hnames : ∀ e ∈ layout.sizes, IsIdentifier e.1) {f : Field} {w : Nat}
    (hwidth : resolveWidth layout f = .ok (.fixed w)) {scope : Scope}
    (hscope : scope.padWidths = widthEntries layout.sizes) :
    scope.padWidth ('[' :: (f.type ++ [']'])) =
      .ok (some ((layout.headerWidth? f.type).getD w)) := by
  rcases allDigits_or_isIdentifier hnames hwidth with ⟨hdigits, hsize⟩ | ⟨hident, hname⟩
  · rw [headerWidth?_of_allDigits hnames hdigits]
    exact padWidth_digits hdigits hsize
  · refine padWidth_name hident ?_
    rw [hscope, lookup_widthEntries]
    change (layout.headerWidth? f.type).or _ = _
    cases hbound : layout.headerWidth? f.type with
    | some n => rfl
    | none =>
      rw [lookup_eq_none_of_headerWidth? hbound, Option.none_or] at hname
      rw [Option.none_or, hname]
      rfl

end Widths

/-! ## A zero -/

/-- The literal of zero. -/
def zeroText : Text := "+0".toList

theorem bigEndian_zero (w : Nat) : bigEndian w 0 = List.replicate w 0 :=
  (eq_bigEndian List.length_replicate (ofBigEndian_replicate_zero w)).symm

/-- **A zero has as many bytes as the width says**, all of them zero. -/
theorem integerBytes_zero (w : Nat) :
    integerBytes (some w) zeroText 10 (zeroText.drop 1) (zeroText.head? == some '-') =
      .ok (List.replicate w 0) := by
  have hdigits : IsNumeral 10 (zeroText.drop 1) := by decide
  have hvalue : 0 = if zeroText.head? == some '-' then -(valueOf 10 (zeroText.drop 1) : Int)
      else valueOf 10 (zeroText.drop 1) := by decide
  rw [integerBytes_eq (by decide) hdigits hvalue, if_neg (by decide), if_pos (fitsWidth_zero w),
    Int.zero_emod, Int.toNat_zero, bigEndian_zero]

/-! ## Headers -/

section Header

variable {st : Settings} {layout : Layout}

/-- The pieces of a header without names of values and of a zero under a directive. -/
theorem exists_scanScript_directed (hdefines : layout.defines = [])
    (hnames : ∀ e ∈ layout.sizes, IsIdentifier e.1) {type : Text} (htype : ']' ∉ type) :
    ∃ ts, scanScript (header layout ++ ('[' :: type ++ ']' :: ' ' :: zeroText)) = .ok ts ∧
      ts.map Token.piece =
        (layout.sizes.map fun e => (.sizeDefinition, '@' :: (e.1 ++ '=' :: decimal e.2))) ++
          [(.pad, '[' :: (type ++ [']']))] ++ [(.integer, zeroText)] := by
  have hheader : header layout = sizeLines layout.sizes := by
    rw [header, hdefines]
    rfl
  have hscans := ((scans_sizeLines hnames).append (Scans.pad htype)).append
    (Scans.blank (c := ' ') (by decide))
  have hlast : scriptTable.next zeroText = (.integer, zeroText.length) := by decide
  rw [List.append_nil] at hscans
  have hscan := hscans.scanScript_append (List.cons_ne_nil _ _) (by decide) hlast
  have htext : header layout ++ ('[' :: type ++ ']' :: ' ' :: zeroText) =
      sizeLines layout.sizes ++ '[' :: (type ++ [']']) ++ [' '] ++ zeroText := by
    rw [hheader]
    simp only [List.append_assoc, List.cons_append, List.nil_append]
  rw [htext]
  exact hscan

/-- **A zero under a directive that names a type** is as wide as the header says, or as the layout
does where the header does not bind the type. So it has the width of the type exactly if the header
binds no other width to the type in any case. -/
theorem compile_header_directed (hdefines : layout.defines = [])
    (hnames : ∀ e ∈ layout.sizes, IsIdentifier e.1) {f : Field} {w : Nat}
    (hwidth : resolveWidth layout f = .ok (.fixed w)) :
    compile st (header layout ++ directed f zeroText) =
        .ok (List.replicate ((layout.headerWidth? f.type).getD w) 0) ∧
    (compile st (header layout ++ directed f zeroText) = .ok (List.replicate w 0) ↔
      ∀ n, layout.headerWidth? f.type = some n → n = w) := by
  have hbracket : ']' ∉ f.type := by
    intro hmem
    rcases allDigits_or_isIdentifier hnames hwidth with ⟨hdigits, -⟩ | ⟨hident, -⟩
    · exact absurd (isNameChar_of_allDigits hdigits _ hmem) (by decide)
    · exact absurd (hident.2 _ hmem) (by decide)
  obtain ⟨ts, hts, hpieces⟩ := exists_scanScript_directed hdefines hnames hbracket
  have hsizes := executes_sizeLines st (defineWithin st st.maxDepth)
    (fun e he => ⟨hnames e he, layout.sizes_lt e he⟩) (Scope.root st)
  let bound : Scope :=
    { Scope.root st with padWidths := widthEntries layout.sizes ++ (Scope.root st).padWidths }
  have hpad : bound.padWidth ('[' :: (f.type ++ [']'])) = _ :=
    padWidth_header hnames hwidth (List.append_nil _)
  have hcompile := compile_of_executes hts (hpieces ▸ (hsizes.append (Executes.pad hpad)).append
    (Executes.integer (integerBytes_zero ((layout.headerWidth? f.type).getD w))))
  rw [List.append_nil, List.nil_append] at hcompile
  change compile st (header layout ++ directed f zeroText) = _ at hcompile
  refine ⟨hcompile, ?_⟩
  rw [hcompile, Except.ok.injEq, List.replicate_left_inj]
  cases layout.headerWidth? f.type with
  | none => simp
  | some n => simp

end Header

/-- Widths by names that differ in case alone from a built-in name and from one another. -/
def spellingsLayout : Layout where
  sizes := [("INT".toList, 2), ("W".toList, 1), ("w".toList, 1)]
  structs_dictionary := isDictionary_nil
  defines_dictionary := isDictionary_nil

/-- One number of a type. -/
def numberField (type : Text) : Field := ⟨type, .once, .decimal, none⟩

/-- Two names that differ in case alone and have one width do no harm, but a built-in type has the
width of a name of the layout. -/
theorem compile_header_directed_spellings :
    compile {} (header spellingsLayout ++ directed (numberField "W".toList) zeroText) =
        .ok (List.replicate 1 0) ∧
      compile {} (header spellingsLayout ++ directed (numberField "int".toList) zeroText) =
        .ok (List.replicate 2 0) ∧
      compile {} (header spellingsLayout ++ directed (numberField "int".toList) zeroText) ≠
        .ok (List.replicate 4 0) := by
  have hnames : ∀ e ∈ spellingsLayout.sizes, IsIdentifier e.1 := by decide
  have hone : resolveWidth spellingsLayout (numberField "W".toList) = .ok (.fixed 1) := by decide
  have hfour : resolveWidth spellingsLayout (numberField "int".toList) = .ok (.fixed 4) := by decide
  have hshort := @compile_header_directed {} spellingsLayout rfl hnames _ _ hfour
  refine ⟨(compile_header_directed rfl hnames hone).2.mpr (by decide), hshort.1, fun h => ?_⟩
  exact absurd (hshort.2.mp h 2 (by decide)) (by decide)

/-- **The two tables of widths do not always agree.** -/
theorem not_compile_header_directed : ¬ ∀ (st : Settings) (layout : Layout) (f : Field) (w : Nat),
    layout.defines = [] → (∀ e ∈ layout.sizes, IsIdentifier e.1) →
    resolveWidth layout f = .ok (.fixed w) →
    compile st (header layout ++ directed f zeroText) = .ok (List.replicate w 0) := by
  intro h
  have hwrong := h {} spellingsLayout (numberField "int".toList) 4 rfl (by decide) (by decide)
  exact absurd hwrong (by decide +kernel)

end ByteScript
