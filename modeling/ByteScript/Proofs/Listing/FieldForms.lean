import ByteScript.Proofs.Listing.Occurrences

/-!
# Fields in one text and line by line

Fields are given as lines or as one text, which is cut at line feeds and semicolons and whose pieces
are trimmed. Blanks at the ends of a line are no part of a spec, not even behind a bracket that is
left open or in front of a name that is missing, so the two forms of the same lines have the same
fields, and listings do not show which form a layout uses.

* `Field.ofLine_append_blank`, **`Field.ofLine_trim`**: blanks at the ends of a line;
* `FieldList.IsSeparator`, `FieldList.IsJoin`, `FieldList.toLines_of_isJoin`: lines in one text;
* `FieldList.SameLines`, `FieldList.SameLines.fields_eq`: the forms of the same lines;
* **`decompile_sameLines`**: listings by layouts that differ in these forms.
-/

namespace ByteScript

/-! ## Blanks at the ends of a line -/

/-- A text without its trailing blanks, and these. -/
theorem Text.exists_blanks_behind (s : Text) :
    ∃ b : Text, (∀ c ∈ b, isBlank c = true) ∧ trimEnd s ++ b = s := by
  induction s with
  | nil => exact ⟨[], nofun, rfl⟩
  | cons c s ih =>
    obtain ⟨b, hb, hs⟩ := ih
    rw [trimEnd_cons]
    split
    · rename_i hnil
      rw [hnil, List.nil_append] at hs
      split
      · rename_i hc
        refine ⟨c :: s, fun d hd => ?_, rfl⟩
        rcases List.mem_cons.mp hd with rfl | hd
        · exact hc
        · exact hb d (hs ▸ hd)
      · exact ⟨b, hb, congrArg (c :: ·) hs⟩
    · exact ⟨b, hb, congrArg (c :: ·) hs⟩

theorem exists_closing {s : Text} (h : (s.takeWhile (· != ']')).length < s.length) :
    ∃ inside after, s = inside ++ ']' :: after ∧ ']' ∉ inside := by
  have hinside : ']' ∉ s.takeWhile (· != ']') := fun hmem =>
    absurd (List.all_eq_true.mp List.all_takeWhile _ hmem) (by decide)
  have hsplit : s.takeWhile (· != ']') ++ s.dropWhile (· != ']') = s :=
    List.takeWhile_append_dropWhile
  cases hrest : s.dropWhile (· != ']') with
  | nil =>
    rw [hrest, List.append_nil] at hsplit
    rw [hsplit] at h
    exact absurd h (Nat.lt_irrefl _)
  | cons c after =>
    have hc := List.head?_dropWhile_not (· != ']') s
    rw [hrest] at hc
    obtain rfl : c = ']' := by simpa using hc
    exact ⟨_, after, by rw [← hrest, hsplit], hinside⟩

section Blank

variable {c : Char} (hc : isBlank c = true)

include hc

theorem FieldFormat.ofChar?_of_isBlank : ofChar? c = none := by
  unfold ofChar?
  split
  all_goals first
    | rfl
    | exact absurd hc (by decide)

namespace Field

theorem formatAt_append_blank (s : Text) :
    formatAt (s ++ [c]) = ((formatAt s).1, (formatAt s).2 ++ [c]) := by
  cases s with
  | nil => simp [formatAt, FieldFormat.ofChar?_of_isBlank hc]
  | cons d s =>
    rw [List.cons_append, formatAt, formatAt]
    cases FieldFormat.ofChar? d <;> rfl

theorem captureAt_append_blank (s : Text) : captureAt (s ++ [c]) = captureAt s := by
  have hname : isCaptureChar c = false := by
    rw [Bool.eq_false_iff]
    exact fun h => Bool.false_ne_true ((isBlank_of_isNameChar h).symm.trans hc)
  have hblank : [c].dropWhile isBlank = [] := by simp [hc]
  have htake (r : Text) : (r ++ [c]).takeWhile isCaptureChar = r.takeWhile isCaptureChar := by
    rw [List.takeWhile_append]
    split
    · rename_i hlength
      have hall := (List.takeWhile_prefix isCaptureChar).eq_of_length hlength
      rw [hall]
      simp [hname]
    · rfl
  unfold captureAt
  rw [List.dropWhile_append, hblank]
  cases hr : s.dropWhile isBlank with
  | nil => rfl
  | cons d r =>
    by_cases hd : d = '$'
    · subst hd
      simp [htake]
    · simp [hd]

/-- **A blank at the end of a line** says nothing, whatever it follows. -/
theorem ofLine_append_blank (s : Text) : ofLine (s ++ [c]) = ofLine s := by
  have hopen : c ≠ '[' := by
    rintro rfl
    exact absurd hc (by decide)
  have hclose : c ≠ ']' := by
    rintro rfl
    exact absurd hc (by decide)
  fun_induction ofLine s with
  | case1 => simp [ofLine, hopen]
  | case2 s inside hlt ih =>
    obtain ⟨inside', after, rfl, hinside⟩ := exists_closing hlt
    have htake : inside = inside' := takeWhile_mark hinside after
    have hafter : (inside' ++ ']' :: after).drop (inside.length + 1) = after := by
      rw [htake, ← List.singleton_append, ← List.append_assoc]
      exact List.drop_left' (by simp)
    have hparts : ofParts inside' (after ++ [c]) = ofParts inside' after := by
      rw [ofParts, ofParts, formatAt_append_blank hc, captureAt_append_blank hc]
    rw [hafter] at ih ⊢
    rw [htake, List.cons_append, List.append_assoc, List.cons_append, ofLine_brackets hinside, ih,
      hparts]
  | case3 s inside hlt =>
    -- a bracket that is left open stays so
    have hnot : ']' ∉ s := fun hmem => by
      obtain ⟨a, b, rfl, ha⟩ := List.eq_append_cons_of_mem hmem
      have htake : inside = a := takeWhile_mark ha b
      rw [htake] at hlt
      exact hlt (by simp)
    have hall : (s ++ [c]).takeWhile (· != ']') = s ++ [c] := by
      refine List.takeWhile_eq_self_iff.mpr (bne_of_not_mem ?_)
      simp [hnot, Ne.symm hclose]
    rw [List.cons_append, ofLine, if_pos rfl]
    dsimp only
    rw [hall, if_neg (Nat.lt_irrefl _)]
  | case4 d s hd ih => rw [List.cons_append, ofLine, if_neg hd, ih]

end Field

end Blank

/-- **Blanks at the ends of a line** say nothing. -/
theorem Field.ofLine_trim (s : Text) : ofLine s.trim = ofLine s := by
  have hbehind (b : Text) : ∀ t : Text, (∀ c ∈ b, isBlank c = true) →
      ofLine (t ++ b) = ofLine t := by
    induction b with
    | nil => exact fun t _ => congrArg ofLine (List.append_nil t)
    | cons c b ih =>
      intro t hb
      rw [List.append_cons, ih _ fun d hd => hb d (List.mem_cons_of_mem c hd)]
      exact ofLine_append_blank (hb c List.mem_cons_self) t
  have hfront : '[' ∉ s.takeWhile isBlank := fun hmem =>
    absurd (List.all_eq_true.mp List.all_takeWhile _ hmem) (by decide)
  obtain ⟨b, hb, hs⟩ := s.trimStart.exists_blanks_behind
  calc ofLine s.trim
      = ofLine (s.trim ++ b) := (hbehind b s.trim hb).symm
    _ = ofLine (s.dropWhile isBlank) := congrArg ofLine hs
    _ = ofLine (s.takeWhile isBlank ++ s.dropWhile isBlank) := (ofLine_append hfront _).symm
    _ = ofLine s := congrArg ofLine List.takeWhile_append_dropWhile

/-! ## The two forms -/

namespace FieldList

/-- The character ends a line of a text of fields. -/
def IsSeparator (c : Char) : Prop := c = '\n' ∨ c = ';'

instance (c : Char) : Decidable (IsSeparator c) :=
  inferInstanceAs (Decidable (c = '\n' ∨ c = ';'))

/-- The text has these lines, with one separator or the other between any two. -/
inductive IsJoin : (ls : List Text) → (s : Text) → Prop
  | nil : IsJoin [] []
  | single (l : Text) : IsJoin [l] l
  | cons (l : Text) {c : Char} (hc : IsSeparator c) {ls : List Text} {s : Text} (hls : ls ≠ [])
      (h : IsJoin ls s) : IsJoin (l :: ls) (l ++ c :: s)

/-- No separator stands in a line. -/
def ArePlain (ls : List Text) : Prop := ∀ l ∈ ls, ∀ c ∈ l, ¬ IsSeparator c

instance (ls : List Text) : Decidable (ArePlain ls) :=
  have (l : Text) : Decidable (∀ c ∈ l, ¬ IsSeparator c) := List.decidableBAll _ l
  List.decidableBAll _ ls

section Join

variable {ls : List Text} {s : Text} (h : IsJoin ls s) (hplain : ArePlain ls)

include h hplain

/-- **Lines in one text are found again**, trimmed. -/
theorem toLines_of_isJoin (hls : ls ≠ []) : (text s).toLines = ls.map Text.trim := by
  have hnot {l : Text} (hl : l ∈ ls) : ∀ c ∈ l, (c == '\n' || c == ';') = false := by
    intro c hc
    have := hplain l hl c hc
    simpa [IsSeparator] using this
  rw [toLines]
  congr 1
  induction h with
  | nil => exact absurd rfl hls
  | single l => exact List.splitOnP_eq_singleton (hnot List.mem_cons_self)
  | @cons l c hc ls s hne _ ih =>
    have hsep : (c == '\n' || c == ';') = true := by simpa [IsSeparator] using hc
    rw [List.splitOnP_append_cons_of_forall_mem (hnot List.mem_cons_self) c hsep s,
      ih (fun k hk => hplain k (List.mem_cons_of_mem l hk)) hne
      fun hl => hnot (List.mem_cons_of_mem _ hl)]

/-- **Both forms of lines have the same fields.** -/
theorem fields_of_isJoin : (text s).fields = (lines ls).fields := by
  by_cases hls : ls = []
  · subst hls
    cases h
    simp [fields, toLines, Text.trim, Text.trimStart, Text.trimEnd, Field.ofLine]
  · rw [fields, toLines_of_isJoin h hplain hls, fields, toLines, List.flatMap_map]
    exact List.flatMap_congr fun l _ => Field.ofLine_trim l

end Join

/-- The same lines, each list of them in one form or the other. -/
inductive SameLines : FieldList → FieldList → Prop
  | refl (l : FieldList) : SameLines l l
  | join {ls : List Text} {s : Text} (h : IsJoin ls s) (hplain : ArePlain ls) :
      SameLines (.lines ls) (.text s)
  | symm {l l' : FieldList} (h : SameLines l l') : SameLines l' l

theorem SameLines.fields_eq {l l' : FieldList} (h : SameLines l l') : l'.fields = l.fields := by
  induction h with
  | refl l => rfl
  | join h hplain => exact fields_of_isJoin h hplain
  | symm _ ih => exact ih.symm

end FieldList

/-! ## Listings -/

/-- **It does not matter whether fields are given line by line or in one text.** Lines without line
feeds and semicolons have the same fields as any text in which they follow each other with line
feeds and semicolons between them; and if two layouts differ only in which form the fields of the
whole and those of each structure have, every binary has the same listing or the same error by
both. -/
theorem decompile_sameLines :
    (∀ {ls : List Text} {s : Text}, FieldList.IsJoin ls s → FieldList.ArePlain ls →
      (FieldList.text s).fields = (FieldList.lines ls).fields) ∧
    ∀ {st : Settings} {layout layout' : Layout},
      layout.Corresponds FieldList.SameLines layout' → layout.format.SameLines layout'.format →
        ∀ bs, decompile st layout' bs = decompile st layout bs := by
  refine ⟨fun h hplain => FieldList.fields_of_isJoin h hplain, fun h hformat bs => ?_⟩
  exact decompile_of_fields_eq (h.mono fun _ _ hl => hl.fields_eq) _ hformat.fields_eq bs

/-- A layout of pairs, where the fields of the whole and those of a pair have these forms. -/
def formLayout (format pair : FieldList) : Layout where
  format := format
  structs := [("pair".toList, pair)]
  sizes_dictionary := isDictionary_nil
  structs_dictionary := List.pairwise_singleton _ _
  defines_dictionary := isDictionary_nil
  sizes_lt := Layout.sizes_lt_nil

/-- A count with a blank behind it, an empty line, a bracket that its line leaves open, and pairs:
as lines with the pair in one text, and the other way round. -/
theorem decompile_sameLines_pairs :
    (FieldList.text "[1]$n ;\n[2 ;]h [pair:$n]".toList).fields =
      (FieldList.lines ["[1]$n ".toList, [], "[2 ".toList, "]h [pair:$n]".toList]).fields ∧
    decompile {} (formLayout (.text "[1]$n ;\n[2 ;]h [pair:$n]".toList)
        (.lines ["[1]h".toList, " [1]d".toList])) [1, 16, 255, 7] =
      .ok ⟨[⟨0, [1], "[1] +1".toList⟩, ⟨1, [16], "[1] #10".toList⟩,
        ⟨1, [255], "[1] -1".toList⟩], 3, [7]⟩ := by
  have hplain : FieldList.ArePlain ["[1]$n ".toList, [], "[2 ".toList, "]h [pair:$n]".toList] := by
    decide +kernel
  have hjoin : FieldList.IsJoin ["[1]$n ".toList, [], "[2 ".toList, "]h [pair:$n]".toList]
      "[1]$n ;\n[2 ;]h [pair:$n]".toList :=
    .cons "[1]$n ".toList (.inr rfl) (by simp) <| .cons [] (.inl rfl) (by simp) <|
      .cons "[2 ".toList (.inr rfl) (by simp) <| .single _
  have hpairs : FieldList.IsJoin ["[1]h".toList, " [1]d".toList] "[1]h; [1]d".toList :=
    .cons "[1]h".toList (.inr rfl) (by simp) <| .single _
  have hpair : FieldList.ArePlain ["[1]h".toList, " [1]d".toList] := by decide +kernel
  have hlayouts : (formLayout (.lines ["[1]$n ".toList, [], "[2 ".toList, "]h [pair:$n]".toList])
      (.text "[1]h; [1]d".toList)).Corresponds FieldList.SameLines
      (formLayout (.text "[1]$n ;\n[2 ;]h [pair:$n]".toList)
        (.lines ["[1]h".toList, " [1]d".toList])) := by
    refine ⟨rfl, fun name => ?_, rfl⟩
    simp only [formLayout, List.lookup_cons, List.lookup_nil]
    split
    · exact .some (.symm (.join hpairs hpair))
    · exact .none
  refine ⟨decompile_sameLines.1 hjoin hplain, ?_⟩
  rw [decompile_sameLines.2 hlayouts (.join hjoin hplain)]
  decide +kernel

end ByteScript
