import ByteScript.Proofs.Text.CharClass

/-!
# Letters in lower case

Lower case changes the ASCII letters of a text one by one and nothing else. What does not tell their
cases apart is the same for a text in lower case.

* `toNat_lowerChar`, `lowerChar_eq_iff`: the characters that are changed;
* `isDigit_lowerChar`, `isHexDigit_lowerChar`, `isNameStart_lowerChar`, `isNameChar_lowerChar`,
  `isQuote_lowerChar`, `isBlank_lowerChar`: classes of characters;
* `takeWhile_lower`, `isPrefixOf_lower`, `utf8Size_lower`, `newlines_lower`, `allDigits_lower`,
  `trim_lower`: texts;
* `lower_eq_iff`, `lower_of_allDigits`: texts without letters.
-/

namespace ByteScript

/-! ## Characters -/

theorem toNat_lowerChar (c : Char) : (Text.lowerChar c).toNat =
    if 65 ≤ c.toNat ∧ c.toNat ≤ 90 then c.toNat + 32 else c.toNat := by
  rw [Text.lowerChar]
  by_cases h : c.isUpper = true
  · have hc := isUpper_iff.mp h
    have hv : (c.toNat + 32).isValidChar := Or.inl (by omega)
    rw [if_pos h, if_pos hc, Char.ofNat, dif_pos hv]
    rfl
  · rw [if_neg h, if_neg (mt isUpper_iff.mpr h)]

theorem lowerChar_lowerChar (c : Char) : Text.lowerChar (Text.lowerChar c) = Text.lowerChar c := by
  rw [toNat_inj_iff, toNat_lowerChar, toNat_lowerChar]
  by_cases h : 65 ≤ c.toNat ∧ c.toNat ≤ 90
  · rw [if_pos h, if_neg (by omega)]
  · rw [if_neg h, if_neg h]

/-- Nothing but itself is a character in lower case that is no letter. -/
theorem lowerChar_eq_iff {c m : Char} (hm : m.isAlpha = false) : Text.lowerChar c = m ↔ c = m := by
  rw [Bool.eq_false_iff, Ne, isAlpha_iff] at hm
  rw [toNat_inj_iff, toNat_inj_iff, toNat_lowerChar]
  split <;> omega

theorem beq_lowerChar {m : Char} (hm : m.isAlpha = false) (c : Char) :
    (Text.lowerChar c == m) = (c == m) := by
  rw [Bool.eq_iff_iff, beq_iff_eq, beq_iff_eq, lowerChar_eq_iff hm]

theorem bne_lowerChar {m : Char} (hm : m.isAlpha = false) (c : Char) :
    (Text.lowerChar c != m) = (c != m) := congrArg not (beq_lowerChar hm c)

theorem isNameChar_lowerChar (c : Char) : isNameChar (Text.lowerChar c) = isNameChar c := by
  rw [Bool.eq_iff_iff, isNameChar_iff, isNameChar_iff, toNat_lowerChar]
  split <;> omega

theorem isNameStart_lowerChar (c : Char) : isNameStart (Text.lowerChar c) = isNameStart c := by
  rw [Bool.eq_iff_iff, isNameStart_iff, isNameStart_iff, toNat_lowerChar]
  split <;> omega

theorem isDigit_lowerChar (c : Char) : (Text.lowerChar c).isDigit = c.isDigit := by
  rw [Bool.eq_iff_iff, isDigit_iff, isDigit_iff, toNat_lowerChar]
  split <;> omega

theorem isHexDigit_lowerChar (c : Char) : isHexDigit (Text.lowerChar c) = isHexDigit c := by
  rw [Bool.eq_iff_iff, isHexDigit_iff, isHexDigit_iff, toNat_lowerChar]
  split <;> omega

theorem isQuote_lowerChar (c : Char) : isQuote (Text.lowerChar c) = isQuote c := by
  rw [isQuote, isQuote, beq_lowerChar rfl, beq_lowerChar rfl]

theorem isBlank_lowerChar (c : Char) : isBlank (Text.lowerChar c) = isBlank c := by
  rw [Bool.eq_iff_iff, isBlank_iff, isBlank_iff, toNat_lowerChar]
  split <;> omega

/-! ## Texts -/

section Texts

variable {s t : Text}

theorem lower_cons (c : Char) (s : Text) :
    Text.lower (c :: s) = Text.lowerChar c :: Text.lower s := rfl

theorem lower_append (s t : Text) : Text.lower (s ++ t) = Text.lower s ++ Text.lower t :=
  List.map_append

theorem lower_drop (s : Text) (n : Nat) : Text.lower (s.drop n) = s.lower.drop n := List.map_drop

theorem lower_take (s : Text) (n : Nat) : Text.lower (s.take n) = s.lower.take n := List.map_take

theorem lower_dropLast (s : Text) : Text.lower s.dropLast = s.lower.dropLast := List.map_dropLast

theorem lower_lower (s : Text) : s.lower.lower = s.lower := by
  rw [Text.lower, Text.lower, List.map_map]
  exact List.map_congr_left fun c _ => lowerChar_lowerChar c

/-- A run of characters of a class is one of the same length in lower case. -/
theorem takeWhile_lower {p : Char → Bool} (hp : ∀ c, p (Text.lowerChar c) = p c) (s : Text) :
    (s.lower.takeWhile p).length = (s.takeWhile p).length := by
  rw [Text.lower, List.takeWhile_map, List.length_map]
  exact congrArg (fun q => (s.takeWhile q).length) (funext hp)

/-- Characters that are no letters come first in a text exactly if they do in lower case. -/
theorem isPrefixOf_lower {p : Text} (hp : ∀ c ∈ p, c.isAlpha = false) (s : Text) :
    p.isPrefixOf s.lower = p.isPrefixOf s := by
  induction p generalizing s with
  | nil => rw [List.isPrefixOf_nil_left, List.isPrefixOf_nil_left]
  | cons a p ih =>
    cases s with
    | nil => rfl
    | cons c s =>
      have hfirst : (a == Text.lowerChar c) = (a == c) := by
        rw [Bool.beq_comm, Bool.beq_comm (a := a), beq_lowerChar (hp a List.mem_cons_self)]
      rw [lower_cons, List.isPrefixOf_cons_cons, List.isPrefixOf_cons_cons, hfirst,
        ih fun d hd => hp d (List.mem_cons_of_mem a hd)]

theorem head?_lower (s : Text) : s.lower.head? = s.head?.map Text.lowerChar := List.head?_map

theorem utf8Size_lower (s : Text) : s.lower.utf8Size = s.utf8Size := by
  induction s with
  | nil => rfl
  | cons c s ih =>
    have hc : (Text.lowerChar c).utf8Size = c.utf8Size := by
      by_cases h : 65 ≤ c.toNat ∧ c.toNat ≤ 90
      · have hlow := toNat_lowerChar c
        rw [if_pos h] at hlow
        have hone : ∀ d : Char, d.toNat < 128 → d.utf8Size = 1 := fun d hd => by
          have := utf8Size_of_ascii (s := [d]) (by simpa using hd)
          simpa using this
        rw [hone c (by omega), hone _ (by omega)]
      · rw [toNat_inj_iff.mpr ((toNat_lowerChar c).trans (if_neg h))]
    rw [lower_cons, Text.utf8Size_cons, Text.utf8Size_cons, hc, ih]

theorem newlines_lower (s : Text) : s.lower.newlines = s.newlines := by
  rw [Text.newlines, Text.newlines, Text.lower, List.count_eq_countP, List.count_eq_countP,
    List.countP_map]
  exact congrArg (List.countP · s) (funext (beq_lowerChar rfl))

theorem allDigits_lower (s : Text) : s.lower.allDigits = s.allDigits := by
  rw [Text.allDigits, Text.allDigits, Text.lower, List.isEmpty_map, List.all_map]
  exact congrArg _ (congrArg _ (funext isDigit_lowerChar))

theorem trimEnd_lower (s : Text) : Text.trimEnd s.lower = Text.lower (Text.trimEnd s) := by
  induction s with
  | nil => rfl
  | cons c s ih =>
    rw [lower_cons, Text.trimEnd, Text.trimEnd, ih, isBlank_lowerChar]
    cases Text.trimEnd s with
    | nil => cases isBlank c <;> rfl
    | cons d t => rfl

/-- **Trimming commutes with lower case.** -/
theorem trim_lower (s : Text) : s.lower.trim = s.trim.lower := by
  have hstart : s.lower.trimStart = s.trimStart.lower := by
    rw [Text.trimStart, Text.trimStart, Text.lower, List.dropWhile_map]
    exact congrArg (fun q => Text.lower (s.dropWhile q)) (funext isBlank_lowerChar)
  rw [Text.trim, Text.trim, hstart, trimEnd_lower]

/-- Nothing but itself is a text in lower case that has no letters. -/
theorem lower_eq_iff (ht : ∀ c ∈ t, c.isAlpha = false) : s.lower = t ↔ s = t := by
  induction s generalizing t with
  | nil => exact Iff.rfl
  | cons c s ih =>
    cases t with
    | nil => exact iff_of_false (List.cons_ne_nil _ _) (List.cons_ne_nil _ _)
    | cons d t =>
      rw [lower_cons, List.cons.injEq, List.cons.injEq, lowerChar_eq_iff (ht d List.mem_cons_self),
        ih fun e he => ht e (List.mem_cons_of_mem d he)]

theorem lower_of_allDigits (h : s.allDigits = true) : s.lower = s := by
  refine (lower_eq_iff fun c hc => ?_).mpr rfl
  have hdigit : c.isDigit = true := by
    rw [Text.allDigits, Bool.and_eq_true, List.all_eq_true] at h
    exact h.2 c hc
  rw [isDigit_iff] at hdigit
  rw [Bool.eq_false_iff, Ne, isAlpha_iff]
  omega

end Texts

end ByteScript
