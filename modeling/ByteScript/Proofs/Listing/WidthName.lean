import ByteScript.Proofs.Listing.Coverage
import ByteScript.Proofs.Layout.FieldType
import ByteScript.Proofs.Script.Execution
import ByteScript.Proofs.Script.LetterCase

/-!
# Names of widths

A type with a fixed width is a run of digits or a name. A layout finds its own names as they are
spelled and the built-in ones in any case; a script finds both in any case, and its own names first.

* `builtinWidth?_lower`, `isIdentifier_of_builtinWidth?`: the built-in names;
* `allDigits_or_isIdentifier`: the types that a layout gives a fixed width;
* **`padWidth_digits`**, **`padWidth_name`**: what a script makes of them.
-/

namespace ByteScript

/-! ## Types -/

theorem builtinWidth?_lower (s : Text) : builtinWidth? s.lower = builtinWidth? s := by
  rw [builtinWidth?, lower_lower, builtinWidth?]

theorem isIdentifier_of_builtinWidth? {s : Text} {n : Nat} (h : builtinWidth? s = some n) :
    IsIdentifier s := by
  have names : ∀ e ∈ padWidths, IsIdentifier e.1 := by decide
  exact isIdentifier_lower_iff.mp (names _ (mem_of_lookup h))

theorem IsIdentifier.not_allDigits {s : Text} (h : IsIdentifier s) : s.allDigits = false := by
  rw [Bool.eq_false_iff]
  intro hd
  obtain ⟨hne, hd⟩ := allDigits_iff.mp hd
  obtain ⟨c, s, rfl⟩ := List.exists_cons_of_ne_nil hne
  have hc := isDigit_iff.mp (hd c List.mem_cons_self)
  have hstart : isNameStart c = true := h.1
  rw [isNameStart_iff] at hstart
  omega

theorem resolveWidth_eq_fixed_iff {layout : Layout} {f : Field} {n : Nat} :
    resolveWidth layout f = .ok (.fixed n) ↔
      ((layout.sizes.lookup f.type).or (size? f.type)).or (builtinWidth? f.type) = some n := by
  unfold resolveWidth
  split
  · rename_i m hm
    rw [hm, Except.ok.injEq, FieldWidth.fixed.injEq, Option.some.injEq]
  · rename_i hnone
    rw [hnone]
    refine iff_of_false (fun h => ?_) nofun
    split at h
    · cases h
    · split at h <;> cases h

/-- **A type with a fixed width is a run of digits or a name**, where the names of a layout are
identifiers. -/
theorem allDigits_or_isIdentifier {layout : Layout} (hnames : ∀ e ∈ layout.sizes, IsIdentifier e.1)
    {f : Field} {n : Nat} (h : resolveWidth layout f = .ok (.fixed n)) :
    f.type.allDigits = true ∧ size? f.type = some n ∨
      IsIdentifier f.type ∧ (layout.sizes.lookup f.type).or (builtinWidth? f.type) = some n := by
  rw [resolveWidth_eq_fixed_iff] at h
  cases hlook : layout.sizes.lookup f.type with
  | some m =>
    rw [hlook] at h
    exact Or.inr ⟨hnames _ (mem_of_lookup hlook), h⟩
  | none =>
    rw [hlook, Option.none_or] at h
    by_cases hdigits : f.type.allDigits = true
    · refine Or.inl ⟨hdigits, ?_⟩
      cases hbuiltin : builtinWidth? f.type with
      | some m =>
        have hident := isIdentifier_of_builtinWidth? hbuiltin
        exact absurd (hident.not_allDigits.symm.trans hdigits) Bool.false_ne_true
      | none => rwa [hbuiltin, Option.or_none] at h
    · have hsize : size? f.type = none := if_neg hdigits
      rw [hsize, Option.none_or] at h
      exact Or.inr ⟨isIdentifier_of_builtinWidth? h, h⟩

/-! ## Directives -/

theorem isBlank_of_isNameChar {c : Char} (h : isNameChar c = true) : isBlank c = false := by
  rw [Bool.eq_false_iff, Ne, isBlank_iff]
  rw [isNameChar_iff] at h
  omega

theorem trim_eq_self {s : Text} (h : ∀ c ∈ s, isBlank c = false) : s.trim = s := by
  have hend : ∀ t : Text, (∀ c ∈ t, isBlank c = false) → t.trimEnd = t := by
    intro t
    induction t with
    | nil => exact fun _ => rfl
    | cons c t ih =>
      intro ht
      rw [Text.trimEnd_cons, ih fun d hd => ht d (List.mem_cons_of_mem _ hd),
        ht c List.mem_cons_self]
      split
      · rename_i hnil
        rw [hnil]
        rfl
      · rfl
  have hhead : s.head?.all (fun c => !isBlank c) = true := by
    cases s with
    | nil => rfl
    | cons c s => rw [List.head?_cons, Option.all_some, h c List.mem_cons_self]; rfl
  rw [Text.trim, Text.trimStart_of_head hhead, hend s h]

section Directive

variable {scope : Scope} {s : Text} {n : Nat}

theorem padSpec_eq (h : ∀ c ∈ s, isNameChar c = true) :
    Text.trim (('[' :: (s ++ [']'])).drop 1).dropLast = s := by
  rw [List.drop_succ_cons, List.drop_zero, List.dropLast_concat]
  exact trim_eq_self fun c hc => isBlank_of_isNameChar (h c hc)

theorem ne_star (h : ∀ c ∈ s, isNameChar c = true) : s ≠ ['*'] := by
  rintro rfl
  exact absurd (h '*' List.mem_cons_self) (by decide)

theorem isNameChar_of_allDigits (h : s.allDigits = true) : ∀ c ∈ s, isNameChar c = true := by
  intro c hc
  have hdigit := isDigit_iff.mp ((allDigits_iff.mp h).2 c hc)
  rw [isNameChar_iff]
  omega

theorem not_mem_of_allDigits (h : s.allDigits = true) {c : Char} (hc : c.isDigit = false) :
    c ∉ s := fun hmem => Bool.false_ne_true (hc.symm.trans ((allDigits_iff.mp h).2 c hmem))

/-- Digits in a directive are a width, if they are a size. -/
theorem padWidth_of_allDigits (hs : s.allDigits = true) :
    scope.padWidth ('[' :: (s ++ [']'])) = match size? s with
      | some n => .ok (some n)
      | none => .error (.invalidNumber s) := by
  have hchars := isNameChar_of_allDigits hs
  unfold Scope.padWidth
  simp only [padSpec_eq hchars]
  exact (if_neg (ne_star hchars)).trans (if_pos hs)

/-- **Digits in a directive stand for themselves.** -/
theorem padWidth_digits (hs : s.allDigits = true) (hn : size? s = some n) :
    scope.padWidth ('[' :: (s ++ [']'])) = .ok (some n) := by
  rw [padWidth_of_allDigits hs, hn]

/-- **A name in a directive** is looked up in lower case, in the scope first. -/
theorem padWidth_name (hs : IsIdentifier s)
    (hn : (scope.padWidths.lookup s.lower).or (builtinWidth? s) = some n) :
    scope.padWidth ('[' :: (s ++ [']'])) = .ok (some n) := by
  unfold Scope.padWidth
  simp only [padSpec_eq hs.2]
  rw [if_neg (ne_star hs.2), hs.not_allDigits, if_neg Bool.false_ne_true, builtinWidth?_lower, hn]

end Directive

end ByteScript
