import ByteScript.Proofs.Listing.CaseKey

/-!
# The text of a field spec

A field that is read from a line can be written as a spec again. What the first reading has trimmed,
stripped of dollar signs or taken for a number is written in a form that the second reading leaves
alone, so the spec is read as the same field and as nothing else.

* `RepeatLength.spelled`, `Field.inside`, `Field.spelledCapture`, `Field.display_eq`: the parts of a
  spec that is written;
* `RepeatLength.IsReadable`, `Field.IsReadable`: the fields that a spec can say;
  `Field.isReadable_of_mem_ofLine`: those of lines are such fields;
* `Field.ofLine_display_append`: a spec in front of other specs;
* **`Field.ofLine_display`**: a spec is read back;
* `Field.ofLine_flatMap_display`, `FieldList.ofFields`, `FieldList.fields_ofFields`: any readable
  fields are those of a line.
-/

namespace ByteScript

/-! ## Parts of a spec -/

/-- A repeat count as it is written behind a type. -/
def RepeatLength.spelled : RepeatLength → Text
  | .once => []
  | .count n => ':' :: decimal n
  | .capture name => ':' :: '$' :: name

namespace Field

/-- What is written between the brackets. -/
def inside (f : Field) : Text := f.type ++ f.length.spelled

/-- The name of a capture as it is written behind the letter. -/
def spelledCapture (f : Field) : Text := (f.capture.map fun name => '$' :: name).getD []

theorem display_eq (f : Field) :
    f.display = '[' :: (f.inside ++ ']' :: f.format.toChar :: f.spelledCapture) := by
  obtain ⟨type, length, format, capture⟩ := f
  cases length <;> simp [display, inside, RepeatLength.spelled, spelledCapture]

end Field

/-! ## Readable fields -/

/-- A repeat count that can be written: a number is a size, and a name is trimmed at its end, does
not start with a dollar sign and holds no closing bracket. -/
def RepeatLength.IsReadable : RepeatLength → Prop
  | .once => True
  | .count n => n < Nat.pow 2 64
  | .capture name => Text.trimEnd name = name ∧ name.head? ≠ some '$' ∧ ']' ∉ name

/-- A field that can be written. -/
structure Field.IsReadable (f : Field) : Prop where
  type : IsTypeName f.type
  length : f.length.IsReadable
  capture : ∀ name, f.capture = some name → IsCaptureName name

theorem Text.trimEnd_of_append (s : Text) {t : Text} (h : Text.trimEnd (s ++ t) = s ++ t) :
    Text.trimEnd t = t := by
  induction s with
  | nil => exact h
  | cons c s ih =>
    apply ih
    rw [List.cons_append, trimEnd_cons] at h
    split at h
    · rename_i hnil
      split at h
      · cases h
      · rw [hnil, (List.cons.inj h).2.symm]
    · exact (List.cons.inj h).2

namespace RepeatLength

/-- **Every repeat count that is read can be written.** -/
theorem isReadable_ofText {s : Text} (htrim : s.trim = s) (hbracket : ']' ∉ s) :
    (ofText s).IsReadable := by
  have hend := Text.trimEnd_of_trim htrim
  unfold ofText
  split
  · rename_i hdigits
    split
    · rename_i n hn
      exact size?_lt hn
    · -- digits that are no size are the name of a capture
      refine ⟨hend, fun hhead => ?_, hbracket⟩
      exact not_mem_of_allDigits hdigits (by decide) (List.mem_of_mem_head? hhead)
  · refine ⟨?_, fun hhead => ?_, fun hmem => hbracket ((List.dropWhile_sublist _).subset hmem)⟩
    · refine Text.trimEnd_of_append (s.takeWhile (· == '$')) ?_
      rwa [List.takeWhile_append_dropWhile]
    · have hnot := List.head?_dropWhile_not (· == '$') s
      rw [hhead] at hnot
      simp at hnot

/-- **A repeat count is read back** from behind a type. -/
theorem lengthOf_spelled {l : RepeatLength} (h : l.IsReadable) {type : Text} (hcolon : ':' ∉ type) :
    Field.lengthOf (type ++ l.spelled) = l := by
  have hdrop (s : Text) : (type ++ s).dropWhile (· != ':') = s.dropWhile (· != ':') :=
    List.dropWhile_append_of_pos (bne_of_not_mem hcolon)
  rw [Field.lengthOf, hdrop]
  cases l with
  | once => rfl
  | count n =>
    have hlt : n < Nat.pow 2 64 := h
    have htrim : Text.trim (decimal n) = decimal n := trim_eq_self fun c hc =>
      isBlank_of_isNameChar (isNameChar_of_allDigits (allDigits_decimal n) c hc)
    change ofText (Text.trim (decimal n)) = _
    rw [htrim, ofText_decimal, if_pos hlt]
  | capture name =>
    obtain ⟨hend, hhead, -⟩ := h
    have htrim : Text.trim ('$' :: name) = '$' :: name := by
      rw [Text.trim, Text.trimStart_of_head rfl, Text.trimEnd_cons, hend]
      split
      · rename_i hnil
        rw [hnil]
        rfl
      · rfl
    have hname : ('$' :: name).dropWhile (· == '$') = name := by
      cases name with
      | nil => rfl
      | cons c s =>
        have hc : c ≠ '$' := fun hc => hhead (congrArg some hc)
        simp [hc]
    change ofText (Text.trim ('$' :: name)) = _
    rw [htrim, ofText, if_neg (by simp [Text.allDigits]), hname]

end RepeatLength

namespace Field

variable {f : Field}

/-- Every field of a line is that of a pair of brackets and of what follows it. -/
theorem exists_ofParts {s : Text} (h : f ∈ ofLine s) :
    ∃ inside after, ']' ∉ inside ∧ f = ofParts inside after := by
  fun_induction ofLine s with
  | case1 => cases h
  | case2 s inside hlt ih =>
    rcases List.mem_cons.mp h with rfl | h
    · refine ⟨inside, _, fun hmem => ?_, rfl⟩
      exact absurd (List.all_eq_true.mp List.all_takeWhile _ hmem) (by decide)
    · exact ih h
  | case3 => cases h
  | case4 c s hc ih => exact ih h

theorem isCaptureName_of_captureAt {s name : Text} (h : captureAt s = some name) :
    IsCaptureName name := by
  unfold captureAt at h
  split at h
  · split at h
    · cases h
    · rename_i r _ hne
      obtain rfl := Option.some.inj h
      exact ⟨hne, List.all_eq_true.mp List.all_takeWhile⟩
  · cases h

theorem isReadable_lengthOf {inside : Text} (h : ']' ∉ inside) :
    (lengthOf inside).IsReadable := by
  unfold lengthOf
  split
  · trivial
  · rename_i c s hs
    refine RepeatLength.isReadable_ofText (Text.trim_trim s) fun hmem => h ?_
    have hsub : c :: s ⊆ inside := hs ▸ (List.dropWhile_sublist _).subset
    exact hsub (List.mem_cons_of_mem c (Text.mem_of_mem_trim hmem))

/-- **Every field of a line can be written.** -/
theorem isReadable_of_mem_ofLine {s : Text} (h : f ∈ ofLine s) : f.IsReadable := by
  obtain ⟨inside, after, hbracket, hparts⟩ := exists_ofParts h
  refine ⟨isTypeName_iff.mpr ⟨s, f, h, rfl⟩, ?_, fun name hname => ?_⟩
  · rw [hparts]
    exact isReadable_lengthOf hbracket
  · rw [hparts] at hname
    exact isCaptureName_of_captureAt hname

/-! ## Reading a spec back -/

namespace IsReadable

variable (hf : f.IsReadable)

include hf

theorem bracket_not_mem_inside : ']' ∉ f.inside := by
  have hdigits (n : Nat) : ']' ∉ decimal n := not_mem_of_allDigits (allDigits_decimal n) (by decide)
  have hlength := hf.length
  rw [inside, List.mem_append, not_or]
  refine ⟨hf.type.bracket, ?_⟩
  cases hl : f.length with
  | once => exact List.not_mem_nil
  | count n => simp [RepeatLength.spelled, hdigits n]
  | capture name =>
    rw [hl] at hlength
    simp [RepeatLength.spelled, hlength.2.2]

theorem bracket_not_mem_spelledCapture : '[' ∉ f.spelledCapture := by
  cases hc : f.capture with
  | none => simp [spelledCapture, hc]
  | some name =>
    have hname : '[' ∉ name := fun hmem =>
      absurd ((hf.capture name hc).2 _ hmem) (by decide)
    simp [spelledCapture, hc, hname]

theorem typeOf_inside : typeOf f.inside = f.type := by
  have htake : f.inside.takeWhile (· != ':') = f.type := by
    rw [inside]
    refine takeWhile_run (bne_of_not_mem hf.type.colon) ?_
    cases f.length <;> rfl
  rw [typeOf, htake, hf.type.trim]

variable {r : Text} (hr : r.head?.all (· == '[') = true)

include hr

theorem captureAt_spelledCapture : captureAt (f.spelledCapture ++ r) = f.capture := by
  have hhead (p : Char → Bool) (hp : p '[' = false) : r.head?.all (fun c => !p c) = true := by
    cases r with
    | nil => rfl
    | cons c r =>
      have hc : c = '[' := by simpa using hr
      simp [hc, hp]
  cases hc : f.capture with
  | none =>
    have hspelled : f.spelledCapture = [] := by simp [spelledCapture, hc]
    have hdrop : r.dropWhile isBlank = r := Text.trimStart_of_head (hhead isBlank (by decide))
    rw [hspelled, List.nil_append, captureAt, hdrop]
    cases r with
    | nil => rfl
    | cons c r =>
      obtain rfl : c = '[' := by simpa using hr
      rfl
  | some name =>
    have hspelled : f.spelledCapture = '$' :: name := by simp [spelledCapture, hc]
    rw [hspelled]
    exact captureAt_append (hf.capture name hc) (hhead isCaptureChar (by decide))

/-- A spec in front of other specs is read as its field. -/
theorem ofParts_inside : ofParts f.inside (f.format.toChar :: (f.spelledCapture ++ r)) = f := by
  have hlength : lengthOf f.inside = f.length :=
    RepeatLength.lengthOf_spelled hf.length hf.type.colon
  have hformat : formatAt (f.format.toChar :: (f.spelledCapture ++ r)) =
      (f.format, f.spelledCapture ++ r) := by
    rw [formatAt, FieldFormat.ofChar?_toChar]
  rw [ofParts, hf.typeOf_inside, hlength, hformat, hf.captureAt_spelledCapture hr]

end IsReadable

/-- **A spec that is written in front of other specs** is read as its field, and those behind it as
they are without it. -/
theorem ofLine_display_append (hf : f.IsReadable) {r : Text}
    (hr : r.head?.all (· == '[') = true) : ofLine (f.display ++ r) = f :: ofLine r := by
  have hbehind : '[' ∉ f.format.toChar :: f.spelledCapture := by
    rw [List.mem_cons, not_or]
    refine ⟨?_, hf.bracket_not_mem_spelledCapture⟩
    cases f.format <;> decide
  have hsplit : f.display ++ r =
      '[' :: (f.inside ++ ']' :: ((f.format.toChar :: f.spelledCapture) ++ r)) := by
    rw [display_eq]
    simp
  rw [hsplit, ofLine_brackets hf.bracket_not_mem_inside, ofLine_append hbehind]
  exact congrArg (· :: ofLine r) (hf.ofParts_inside hr)

/-- **A field that was read is read back.** Whatever the line is that the field comes from, the spec
that is written for the field is a line of this field alone. -/
theorem ofLine_display {line : Text} (h : f ∈ ofLine line) : ofLine f.display = [f] := by
  have hread := ofLine_display_append (isReadable_of_mem_ofLine h) (r := []) rfl
  rwa [List.append_nil, ofLine] at hread

/-- A type with a bracket and a blank in it, a count behind two dollar signs, and one of more than
64 bits, which is taken for a name. -/
theorem ofLine_display_brackets :
    ∃ f g, ofLine "] [[ a\tb : $$ c:$d ]x\n$v_1; [2:18446744073709551616]$".toList = [f, g] ∧
      f.display = "[[ a\tb:$ c:$d]h$v_1".toList ∧ ofLine f.display = [f] ∧
      g.display = "[2:$18446744073709551616]d".toList ∧ ofLine g.display = [g] := by
  have hline : ofLine "] [[ a\tb : $$ c:$d ]x\n$v_1; [2:18446744073709551616]$".toList =
      [⟨"[ a\tb".toList, .capture " c:$d".toList, .hex, some "v_1".toList⟩,
        ⟨"2".toList, .capture "18446744073709551616".toList, .decimal, none⟩] := by
    decide +kernel
  refine ⟨_, _, hline, by decide +kernel, ?_, by decide +kernel, ?_⟩
  · exact ofLine_display (hline ▸ List.mem_cons_self)
  · exact ofLine_display (hline ▸ List.mem_cons_of_mem _ List.mem_cons_self)

/-! ## Fields written in a line -/

/-- **Readable fields are those of a line**, in which their specs follow each other. -/
theorem ofLine_flatMap_display {fs : List Field} (h : ∀ f ∈ fs, f.IsReadable) :
    ofLine (fs.flatMap display) = fs := by
  induction fs with
  | nil => rw [List.flatMap_nil, ofLine]
  | cons f fs ih =>
    have hnext : (fs.flatMap display).head?.all (· == '[') = true := by
      cases fs with
      | nil => rfl
      | cons g fs => rw [List.flatMap_cons, display_eq]; rfl
    rw [List.flatMap_cons, ofLine_display_append (h f List.mem_cons_self) hnext,
      ih fun g hg => h g (List.mem_cons_of_mem f hg)]

end Field

namespace FieldList

/-- Fields in a line, in which their specs follow each other. -/
def ofFields (fs : List Field) : FieldList := .lines [fs.flatMap Field.display]

theorem fields_ofFields {fs : List Field} (h : ∀ f ∈ fs, f.IsReadable) :
    (ofFields fs).fields = fs := by
  rw [fields, ofFields, toLines, List.flatMap_singleton, Field.ofLine_flatMap_display h]

theorem isReadable {l : FieldList} {f : Field} (h : f ∈ l.fields) : f.IsReadable := by
  obtain ⟨s, -, hs⟩ := List.mem_flatMap.mp h
  exact Field.isReadable_of_mem_ofLine hs

end FieldList

end ByteScript
