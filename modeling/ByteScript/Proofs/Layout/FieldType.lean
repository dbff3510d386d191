import ByteScript.Layout.Document

/-!
# Types of fields

The type of a field stands between brackets and is trimmed, so a directive that names it is one
pair of brackets, and trimming the directive again gives the type.

* `Text.trim_trim`: a trimmed text stays as it is;
* `Field.HasPlainType`: the type is trimmed and holds no closing bracket;
* `Field.hasPlainType_of_mem_ofLine`, **`FieldList.hasPlainType`**: so it is for every field read;
* `Field.colon_not_mem_type`: no type holds a colon.
-/

namespace ByteScript

namespace Text

/-! ## Trimming -/

theorem trimEnd_cons (c : Char) (s : Text) :
    trimEnd (c :: s) = if trimEnd s = [] then (if isBlank c then [] else [c])
      else c :: trimEnd s := by
  rw [trimEnd]
  split
  · rename_i h
    rw [h, if_pos rfl]
  · rename_i t h
    rw [if_neg h]

theorem mem_of_mem_trimEnd {c : Char} {s : Text} (h : c ∈ trimEnd s) : c ∈ s := by
  induction s with
  | nil => exact h
  | cons d s ih =>
    rw [trimEnd_cons] at h
    split at h
    · split at h
      · cases h
      · exact List.mem_singleton.mp h ▸ List.mem_cons_self
    · rcases List.mem_cons.mp h with rfl | h
      · exact List.mem_cons_self
      · exact List.mem_cons_of_mem _ (ih h)

theorem mem_of_mem_trim {c : Char} {s : Text} (h : c ∈ trim s) : c ∈ s :=
  (List.dropWhile_sublist isBlank).subset (mem_of_mem_trimEnd h)

theorem trimEnd_trimEnd (s : Text) : trimEnd (trimEnd s) = trimEnd s := by
  induction s with
  | nil => rfl
  | cons c s ih =>
    rw [trimEnd_cons]
    by_cases hs : trimEnd s = []
    · rw [if_pos hs]
      by_cases hc : isBlank c = true
      · rw [if_pos hc]
        rfl
      · rw [if_neg hc, trimEnd_cons, if_pos (show trimEnd [] = [] from rfl), if_neg hc]
    · rw [if_neg hs, trimEnd_cons, ih, if_neg hs]

theorem trimEnd_append (s : Text) {t : Text} (ht : trimEnd t = t) (hne : t ≠ []) :
    trimEnd (s ++ t) = s ++ t := by
  induction s with
  | nil => exact ht
  | cons c s ih =>
    have hnil : s ++ t ≠ [] := List.append_ne_nil_of_right_ne_nil s hne
    rw [List.cons_append, trimEnd_cons, ih, if_neg hnil]

theorem trimStart_of_head {s : Text} (h : s.head?.all (fun c => !isBlank c) = true) :
    trimStart s = s := by
  cases s with
  | nil => rfl
  | cons c s =>
    rw [List.head?_cons, Option.all_some, Bool.not_eq_true'] at h
    rw [trimStart, List.dropWhile_cons, h, if_neg Bool.false_ne_true]

theorem head?_trimEnd {s : Text} (h : s.head?.all (fun c => !isBlank c) = true) :
    (trimEnd s).head? = s.head? := by
  cases s with
  | nil => rfl
  | cons c s =>
    rw [List.head?_cons, Option.all_some, Bool.not_eq_true'] at h
    rw [trimEnd_cons, h, if_neg Bool.false_ne_true]
    split <;> rfl

theorem head?_trimStart (s : Text) : (trimStart s).head?.all (fun c => !isBlank c) = true := by
  have := List.head?_dropWhile_not isBlank s
  rw [trimStart]
  cases h : (s.dropWhile isBlank).head? with
  | none => rfl
  | some c =>
    rw [h] at this
    rw [Option.all_some, this]
    rfl

/-- **A trimmed text stays as it is.** -/
theorem trim_trim (s : Text) : trim (trim s) = trim s := by
  have hhead := head?_trimStart s
  rw [← head?_trimEnd hhead] at hhead
  rw [trim, trim, trimStart_of_head hhead, trimEnd_trimEnd]

theorem trimEnd_of_trim {s : Text} (h : trim s = s) : trimEnd s = s := by
  rw [← h, trim, trimEnd_trimEnd]

end Text

/-! ## Types -/

/-- The type of the field is trimmed and holds no closing bracket. -/
structure Field.HasPlainType (f : Field) : Prop where
  trim_type : f.type.trim = f.type
  not_mem_type : ']' ∉ f.type

theorem Field.hasPlainType_of_mem_ofLine {s : Text} {f : Field} (h : f ∈ Field.ofLine s) :
    f.HasPlainType := by
  fun_induction Field.ofLine s with
  | case1 => cases h
  | case2 s inside hlt ih =>
    rcases List.mem_cons.mp h with rfl | h
    · refine ⟨Text.trim_trim _, fun hmem => ?_⟩
      have hinside := (List.takeWhile_sublist _).subset (Text.mem_of_mem_trim hmem)
      have := List.all_eq_true.mp List.all_takeWhile _ hinside
      exact absurd this (by decide)
    · exact ih h
  | case3 => cases h
  | case4 c s hc ih => exact ih h

/-- The type of a spec ends at the first colon. -/
theorem Field.colon_not_mem_type {s : Text} {f : Field} (h : f ∈ Field.ofLine s) :
    ':' ∉ f.type := by
  fun_induction Field.ofLine s with
  | case1 => cases h
  | case2 s inside hlt ih =>
    rcases List.mem_cons.mp h with rfl | h
    · intro hmem
      have hbefore := List.all_eq_true.mp List.all_takeWhile _ (Text.mem_of_mem_trim hmem)
      exact absurd hbefore (by decide)
    · exact ih h
  | case3 => cases h
  | case4 c s hc ih => exact ih h

/-- **Every field that is read has a plain type.** -/
theorem FieldList.hasPlainType {l : FieldList} {f : Field} (h : f ∈ l.fields) : f.HasPlainType := by
  obtain ⟨s, _, hs⟩ := List.mem_flatMap.mp h
  exact Field.hasPlainType_of_mem_ofLine hs

end ByteScript
