import ByteScript.Literal.Quote
import ByteScript.Proofs.Number.Numeral

/-!
# Quoted texts read back

The literal of a text is one string token, and its value is the text again. What a printer puts
between the marks is read back character by character as soon as each is written in one of three
ways.

* `WrittenAs`: a character stands for itself, after a backslash, or by two hexadecimal digits;
  `writtenAs_quoteChar`: so do the characters of a literal; `not_mem_quote`: it is on one line;
* `bodyUntil_written`, `shortBody_written`: the body ends at the closing mark, for the grammar of
  literals and for the scanner;
* `expand_written`: the value of the body;
* **`unquote_written`**: the value of written characters between marks;
* **`unquote_quote`**, **`string_quote`**: the value and the length of a literal.
-/

namespace ByteScript

/-! ## Characters in a literal -/

/-- A character that stands for itself between marks. -/
def IsPlain (mark c : Char) : Prop := c ≠ '\\' ∧ c ≠ mark ∧ c ≠ '\n' ∧ c ≠ '\r'

theorem isQuote_quoteMark (s : Text) : quoteMark s = '\'' ∨ quoteMark s = '"' := by
  unfold quoteMark
  split
  · exact Or.inr rfl
  · exact Or.inl rfl

theorem toNat_lt_of_isControl {c : Char} (h : isControl c = true) : c.toNat < 160 := by
  simp only [isControl, Bool.or_eq_true, Bool.and_eq_true, decide_eq_true_eq] at h
  omega

/-- The ways in which a character is written between marks. -/
inductive WrittenAs (mark : Char) : Char → Text → Prop where
  /-- A letter or a mark stands for it after a backslash. -/
  | escaped {c x : Char} : x ≠ '\n' → simpleEscape? x = some [c] → WrittenAs mark c ['\\', x]
  /-- Two hexadecimal digits give its code point. -/
  | coded {c : Char} {b : UInt8} : b.toNat = c.toNat → WrittenAs mark c ('\\' :: 'x' :: hexByte b)
  /-- It stands for itself. -/
  | plain {c : Char} : IsPlain mark c → WrittenAs mark c [c]

/-- The characters of a literal are written in these ways. -/
theorem writtenAs_quoteChar {mark : Char} (hm : mark = '\'' ∨ mark = '"') (c : Char) :
    WrittenAs mark c (quoteChar mark c) := by
  unfold quoteChar
  by_cases h₁ : c = '\\'
  · subst h₁
    exact .escaped (by decide) rfl
  · rw [if_neg h₁]
    by_cases h₂ : c = '\n'
    · subst h₂
      exact .escaped (by decide) rfl
    · rw [if_neg h₂]
      by_cases h₃ : c = '\r'
      · subst h₃
        exact .escaped (by decide) rfl
      · rw [if_neg h₃]
        by_cases h₄ : c = '\t'
        · subst h₄
          exact .escaped (by decide) rfl
        · rw [if_neg h₄]
          by_cases h₅ : c = mark
          · rw [if_pos h₅]
            refine .escaped h₂ ?_
            subst h₅
            rcases hm with rfl | rfl <;> rfl
          · rw [if_neg h₅]
            by_cases h₆ : isControl c = true
            · have := toNat_lt_of_isControl h₆
              rw [if_pos h₆]
              refine .coded ?_
              rw [UInt8.toNat_ofNat']
              omega
            · rw [if_neg h₆]
              exact .plain ⟨h₁, h₅, h₂, h₃⟩

theorem hexBytes_singleton (b : UInt8) : hexBytes [b] = hexByte b := by
  rw [hexBytes, List.flatMap_cons, List.flatMap_nil, List.append_nil]

theorem isPlain_of_mem_hexByte {mark : Char} (hm : mark = '\'' ∨ mark = '"') {b : UInt8} {c : Char}
    (h : c ∈ hexByte b) : IsPlain mark c := by
  have hc : isHexDigit c = true := by
    rw [← hexBytes_singleton] at h
    exact isHexDigit_of_mem_hexBytes h
  refine ⟨?_, ?_, ?_, ?_⟩ <;> rintro rfl
  · exact absurd hc (by decide)
  · rcases hm with rfl | rfl <;> exact absurd hc (by decide)
  · exact absurd hc (by decide)
  · exact absurd hc (by decide)

/-- What is written between marks is on one line. -/
theorem WrittenAs.not_mem {mark c : Char} {w : Text} (hm : mark = '\'' ∨ mark = '"')
    (h : WrittenAs mark c w) : '\n' ∉ w := by
  intro hc
  cases h with
  | escaped hx _ => simp [hx.symm] at hc
  | coded _ =>
    rcases List.mem_cons.mp hc with hc | hc
    · cases hc
    · rcases List.mem_cons.mp hc with hc | hc
      · cases hc
      · exact (isPlain_of_mem_hexByte hm hc).2.2.1 rfl
  | plain hp => exact hp.2.2.1 (List.mem_singleton.mp hc).symm

/-- A literal is on one line. -/
theorem not_mem_quote (s : Text) : '\n' ∉ quote s := by
  have hm := isQuote_quoteMark s
  have hmark : '\n' ≠ quoteMark s := by rcases hm with h | h <;> rw [h] <;> decide
  rw [quote, List.cons_append, List.mem_cons, List.mem_append, List.mem_singleton, not_or, not_or]
  refine ⟨hmark, fun hmem => ?_, hmark⟩
  obtain ⟨c, -, hc⟩ := List.mem_flatMap.mp hmem
  exact (writtenAs_quoteChar hm c).not_mem hm hc

/-! ## The end of the body -/

theorem ne_backslash {c : Char} {s : Text} (h₁ : c = '\\' → s = [] → False)
    (h₂ : ∀ d t, c = '\\' → s = d :: t → False) : c ≠ '\\' := by
  rintro rfl
  cases s with
  | nil => exact h₁ rfl rfl
  | cons d t => exact h₂ d t rfl rfl

section Body

variable {mark : Char}

theorem endsAt_of_isPlain {c : Char} (h : c = '\\' ∨ IsPlain mark c) (hm : mark ≠ '\\') (s : Text) :
    (Delimiter.mk mark false).endsAt (c :: s) = false := by
  have hne : c ≠ mark ∧ c ≠ '\n' ∧ c ≠ '\r' := by
    rcases h with rfl | ⟨_, h₁, h₂, h₃⟩
    · exact ⟨Ne.symm hm, by decide, by decide⟩
    · exact ⟨h₁, h₂, h₃⟩
  have hp : [mark].isPrefixOf (c :: s) = false := by
    simp [List.isPrefixOf, Ne.symm hne.1]
  simp only [Delimiter.endsAt, Delimiter.text, Bool.false_eq_true, if_false, List.replicate_one]
  rw [hp]
  simp [hne]

theorem bodyUntil_cons {stop : Text → Bool} {c : Char} (h : c ≠ '\\') (s : Text) :
    bodyUntil stop (c :: s) = if stop (c :: s) then ([], c :: s)
      else (c :: (bodyUntil stop s).1, (bodyUntil stop s).2) :=
  bodyUntil.eq_3 _ _ _ fun _ _ hc => absurd hc h

theorem shortBody_cons {c : Char} (h : c ≠ '\\') (s : Text) :
    Pattern.shortBody mark (c :: s) =
      if c = mark ∨ c = '\n' then 0 else 1 + Pattern.shortBody mark s :=
  Pattern.shortBody.eq_4 _ _ _ (fun hc _ => absurd hc h) (fun _ _ hc => absurd hc h)

theorem bodyUntil_isPlain (hm : mark ≠ '\\') {c : Char} (h : IsPlain mark c) (s : Text) :
    bodyUntil (Delimiter.mk mark false).endsAt (c :: s) =
      (c :: (bodyUntil (Delimiter.mk mark false).endsAt s).1,
        (bodyUntil (Delimiter.mk mark false).endsAt s).2) := by
  rw [bodyUntil_cons h.1, endsAt_of_isPlain (Or.inr h) hm, if_neg Bool.false_ne_true]

theorem bodyUntil_backslash (hm : mark ≠ '\\') (c : Char) (s : Text) :
    bodyUntil (Delimiter.mk mark false).endsAt ('\\' :: c :: s) =
      ('\\' :: c :: (bodyUntil (Delimiter.mk mark false).endsAt s).1,
        (bodyUntil (Delimiter.mk mark false).endsAt s).2) := by
  rw [bodyUntil, endsAt_of_isPlain (Or.inl rfl) hm, if_neg Bool.false_ne_true]

theorem shortBody_isPlain {c : Char} (h : IsPlain mark c) (s : Text) :
    Pattern.shortBody mark (c :: s) = 1 + Pattern.shortBody mark s := by
  rw [shortBody_cons h.1, if_neg (not_or.mpr ⟨h.2.1, h.2.2.1⟩)]

theorem shortBody_backslash {c : Char} (h : c ≠ '\n') (s : Text) :
    Pattern.shortBody mark ('\\' :: c :: s) = 2 + Pattern.shortBody mark s := by
  rw [Pattern.shortBody, if_neg h]

end Body

/-- A written character is part of the body. -/
theorem WrittenAs.bodyUntil_append {mark c : Char} {w : Text} (hm : mark = '\'' ∨ mark = '"')
    (h : WrittenAs mark c w) (s : Text) :
    bodyUntil (Delimiter.mk mark false).endsAt (w ++ s) =
      (w ++ (bodyUntil (Delimiter.mk mark false).endsAt s).1,
        (bodyUntil (Delimiter.mk mark false).endsAt s).2) := by
  have hne : mark ≠ '\\' := by rcases hm with rfl | rfl <;> decide
  cases h with
  | escaped _ _ => exact bodyUntil_backslash hne _ _
  | @coded b _ =>
    have plain : ∀ d ∈ hexByte b, IsPlain mark d := fun d => isPlain_of_mem_hexByte hm
    rw [List.cons_append, List.cons_append, bodyUntil_backslash hne]
    rw [hexByte, List.cons_append, List.cons_append, List.nil_append,
      bodyUntil_isPlain hne (plain _ List.mem_cons_self),
      bodyUntil_isPlain hne (plain _ (List.mem_cons_of_mem _ List.mem_cons_self))]
    rfl
  | plain hp => exact bodyUntil_isPlain hne hp _

/-- The scanner goes on after it as well. -/
theorem WrittenAs.shortBody_append {mark c : Char} {w : Text} (hm : mark = '\'' ∨ mark = '"')
    (h : WrittenAs mark c w) (s : Text) :
    Pattern.shortBody mark (w ++ s) = w.length + Pattern.shortBody mark s := by
  cases h with
  | escaped hx _ => exact shortBody_backslash hx s
  | @coded b _ =>
    have plain : ∀ d ∈ hexByte b, IsPlain mark d := fun d => isPlain_of_mem_hexByte hm
    rw [List.cons_append, List.cons_append, shortBody_backslash (by decide)]
    rw [hexByte, List.cons_append, List.cons_append, List.nil_append,
      shortBody_isPlain (plain _ List.mem_cons_self),
      shortBody_isPlain (plain _ (List.mem_cons_of_mem _ List.mem_cons_self))]
    simp only [List.length_cons, List.length_nil]
    omega
  | plain hp => exact shortBody_isPlain hp s

section Written

variable {α : Type} {mark : Char} {value : α → Char} {write : α → Text}

/-- The body of a written text ends at the mark after it. -/
theorem bodyUntil_written (hm : mark = '\'' ∨ mark = '"')
    (hw : ∀ a, WrittenAs mark (value a) (write a)) (as : List α) :
    bodyUntil (Delimiter.mk mark false).endsAt (as.flatMap write ++ [mark]) =
      (as.flatMap write, [mark]) := by
  have hne : mark ≠ '\\' := by rcases hm with rfl | rfl <;> decide
  induction as with
  | nil =>
    have he : (Delimiter.mk mark false).endsAt [mark] = true := by
      simp [Delimiter.endsAt, Delimiter.text]
    rw [List.flatMap_nil, List.nil_append, bodyUntil_cons hne, if_pos he]
  | cons a as ih => rw [List.flatMap_cons, List.append_assoc, (hw a).bodyUntil_append hm, ih]

/-- The scanner finds the same end, whatever comes after the mark. -/
theorem shortBody_written (hm : mark = '\'' ∨ mark = '"')
    (hw : ∀ a, WrittenAs mark (value a) (write a)) (as : List α) (r : Text) :
    Pattern.shortBody mark (as.flatMap write ++ mark :: r) = (as.flatMap write).length := by
  have hne : mark ≠ '\\' := by rcases hm with rfl | rfl <;> decide
  induction as with
  | nil =>
    rw [List.flatMap_nil, List.nil_append, shortBody_cons hne, if_pos (Or.inl rfl)]
    rfl
  | cons a as ih =>
    rw [List.flatMap_cons, List.append_assoc, (hw a).shortBody_append hm, ih, List.length_append]

/-- A written text does not start with a mark. -/
theorem isPrefixOf_written (hm : mark = '\'' ∨ mark = '"')
    (hw : ∀ a, WrittenAs mark (value a) (write a)) (as : List α) (r : Text)
    (h : [mark, mark].isPrefixOf (as.flatMap write ++ mark :: r) = true) :
    as = [] ∧ r.head? = some mark := by
  have hne : mark ≠ '\\' := by rcases hm with rfl | rfl <;> decide
  cases as with
  | nil =>
    cases r with
    | nil => simp at h
    | cons d r => simp at h; exact ⟨rfl, congrArg some h.symm⟩
  | cons a as =>
    exfalso
    have ha := hw a
    rw [List.flatMap_cons, List.append_assoc] at h
    generalize value a = c, write a = w at ha h
    cases ha with
    | escaped _ _ => simp [hne] at h
    | coded _ => simp [hne] at h
    | plain hp => simp [Ne.symm hp.2.1] at h

end Written

/-! ## The value of the body -/

theorem codePoint_hexByte {b : UInt8} {c : Char} (h : b.toNat = c.toNat) :
    codePoint 16 (hexByte b) = .ok c := by
  have hn : IsNumeral 16 (hexByte b) := by
    rw [← hexBytes_singleton]
    exact isNumeral_hexBytes (List.cons_ne_nil _ _)
  have hb := byte_lt b
  have hu : unsigned? 32 16 (hexByte b) = some c.toNat := by
    rw [unsigned?_of_isNumeral (by decide) hn, valueOf_hexByte, h]
    rw [valueOf_hexByte]
    exact Nat.lt_trans hb (by decide)
  rw [codePoint, hu, Option.bind_some, char?_toNat]

theorem utf8Size_hexByte (b : UInt8) : Text.utf8Size (hexByte b) = 2 := by
  have one : ∀ n < 16, (Nat.digitChar n).utf8Size = 1 := by decide
  have hb := byte_lt b
  rw [hexByte, Text.utf8Size_cons, Text.utf8Size_cons, Text.utf8Size_nil, one _ (by omega),
    one _ (by omega)]

theorem expand_simple {x c : Char} (h : simpleEscape? x = some [c]) (s : Text) :
    expand ('\\' :: x :: s) = (expand s).map (c :: ·) := by
  rw [expand, readEscape, h]
  simp only [bind, Except.bind, List.drop_zero]
  cases expand s <;> rfl

theorem expand_hexByte {b : UInt8} {c : Char} (h : b.toNat = c.toNat) (s : Text) :
    expand ('\\' :: 'x' :: (hexByte b ++ s)) = (expand s).map (c :: ·) := by
  have ht : (hexByte b ++ s).take 2 = hexByte b := List.take_left' rfl
  have hd : (hexByte b ++ s).drop 2 = s := List.drop_left' rfl
  have hr : readEscape 'x' (hexByte b ++ s) = .ok ⟨[c], 2⟩ := by
    rw [readEscape]
    have h₁ : simpleEscape? 'x' = none := rfl
    have h₂ : hexEscapeLength? 'x' = some 2 := rfl
    simp only [h₁, h₂]
    rw [ht, if_pos (utf8Size_hexByte b), codePoint_hexByte h]
    rfl
  rw [expand, hr]
  simp only [bind, Except.bind]
  rw [hd]
  cases expand s <;> rfl

theorem expand_plain {c : Char} (h : c ≠ '\\') (s : Text) :
    expand (c :: s) = (expand s).map (c :: ·) := by
  rw [expand.eq_4 _ _ (fun hc _ => absurd hc h) (fun _ _ hc => absurd hc h)]
  cases expand s <;> rfl

/-- The value of a written character. -/
theorem WrittenAs.expand_append {mark c : Char} {w : Text} (h : WrittenAs mark c w) (s : Text) :
    expand (w ++ s) = (expand s).map (c :: ·) := by
  cases h with
  | escaped _ hx => exact expand_simple hx s
  | coded hb => exact expand_hexByte hb s
  | plain hp => exact expand_plain hp.1 s

/-- The value of the body of a written text. -/
theorem expand_written {α : Type} {mark : Char} {value : α → Char} {write : α → Text}
    (hw : ∀ a, WrittenAs mark (value a) (write a)) (as : List α) :
    expand (as.flatMap write) = .ok (as.map value) := by
  induction as with
  | nil => rw [List.flatMap_nil, expand, List.map_nil]
  | cons a as ih =>
    rw [List.flatMap_cons, (hw a).expand_append, ih]
    rfl

/-! ## Literals -/

theorem sameLetters_of_mark {mark : Char} (hm : mark = '\'' ∨ mark = '"') (s : Text) {l : Text}
    (hl : l.head?.any Char.isLower = true) :
    Text.sameLetters ((mark :: s).take l.length) l = false := by
  cases l with
  | nil => cases hl
  | cons a l =>
    have ha := isLower_iff.mp (Option.any_some ▸ hl)
    have hupper : a.isUpper = false := by
      rw [Bool.eq_false_iff, ne_eq, isUpper_iff]
      omega
    have hne : mark ≠ a := by
      rintro rfl
      rcases hm with rfl | rfl <;> exact absurd ha (by decide)
    have low : Text.lowerChar mark = mark := by rcases hm with rfl | rfl <;> decide
    have low' : Text.lowerChar a = a := by
      rw [Text.lowerChar, hupper, if_neg Bool.false_ne_true]
    rw [Text.sameLetters, beq_eq_false_iff_ne, List.length_cons, List.take_succ_cons, Text.lower,
      Text.lower, List.map_cons, List.map_cons, low, low']
    intro he
    exact hne (List.cons.inj he).1

theorem lettersOf_of_mark {mark : Char} (hm : mark = '\'' ∨ mark = '"') (s : Text) :
    Literal.lettersOf (mark :: s) = [] := by
  have low : ∀ l ∈ Literal.letterChoices, l.head?.any Char.isLower = true := by decide
  have hn : (Literal.letterChoices.find? fun l =>
      Text.sameLetters ((mark :: s).take l.length) l) = none := by
    rw [List.find?_eq_none]
    intro l hl
    rw [sameLetters_of_mark hm s (low l hl)]
    exact Bool.false_ne_true
  rw [Literal.lettersOf, hn]

/-- **Written characters between marks** are a literal, whose value is the characters. -/
theorem unquote_written {α : Type} {mark : Char} {value : α → Char} {write : α → Text}
    (hm : mark = '\'' ∨ mark = '"') (hw : ∀ a, WrittenAs mark (value a) (write a)) (as : List α) :
    unquote (mark :: (as.flatMap write ++ [mark])) = .ok (as.map value) := by
  have hopen : Delimiter.opening? (mark :: (as.flatMap write ++ [mark])) = some ⟨mark, false⟩ := by
    have hp : [mark, mark].isPrefixOf (as.flatMap write ++ [mark]) = false := by
      rw [Bool.eq_false_iff]
      intro h
      have := (isPrefixOf_written hm hw as [] h).2
      cases this
    rw [Delimiter.opening?, if_pos hm, hp]
  have hlit : Literal.ofText? (mark :: (as.flatMap write ++ [mark])) =
      some ⟨[], ⟨mark, false⟩, as.flatMap write⟩ := by
    unfold Literal.ofText?
    simp only [lettersOf_of_mark hm, List.length_nil, List.drop_zero, hopen]
    have ht : (Delimiter.mk mark false).text = [mark] := rfl
    rw [ht, List.length_singleton, List.drop_succ_cons, List.drop_zero, bodyUntil_written hm hw,
      if_pos rfl]
  rw [unquote, hlit]
  simp only [Literal.value, Literal.isFormatted, Literal.isRaw]
  exact expand_written hw as

/-- **The value of the literal of a text is the text.** -/
theorem unquote_quote (s : Text) : unquote (quote s) = .ok s := by
  have hm := isQuote_quoteMark s
  have h := unquote_written hm (writtenAs_quoteChar hm) s
  rwa [List.map_id'] at h

theorem lettersLength_of_mark {mark : Char} (hm : mark = '\'' ∨ mark = '"') (s : Text) :
    Pattern.lettersLength (mark :: s) = 0 := by
  have low : ∀ l ∈ Pattern.stringLetters, l.head?.any Char.isLower = true := by decide
  have hn : (Pattern.stringLetters.find? fun l =>
      Text.sameLetters ((mark :: s).take l.length) l &&
        ((mark :: s).drop l.length).head?.any isQuote) = none := by
    rw [List.find?_eq_none]
    intro l hl
    rw [sameLetters_of_mark hm s (low l hl), Bool.false_and]
    exact Bool.false_ne_true
  rw [Pattern.lettersLength, hn]

/-- **The literal of a text is one string**, unless a mark comes right after it. -/
theorem string_quote (s r : Text) (hr : r.head?.any isQuote = false) :
    Pattern.string (quote s ++ r) = some (quote s).length := by
  have hm := isQuote_quoteMark s
  rw [quote]
  generalize quoteMark s = mark at hm
  have hq := isQuote_iff_mark.mpr hm
  have hp : [mark, mark].isPrefixOf (s.flatMap (quoteChar mark) ++ mark :: r) = false := by
    rw [Bool.eq_false_iff]
    intro h
    have hhead := (isPrefixOf_written hm (writtenAs_quoteChar hm) s r h).2
    rw [hhead, Option.any_some, hq] at hr
    cases hr
  have hclose : [mark].isPrefixOf (mark :: r) = true := by
    simp [List.isPrefixOf]
  rw [List.cons_append, List.cons_append, List.append_assoc, List.singleton_append,
    Pattern.string, lettersLength_of_mark hm, List.drop_zero, Pattern.quoted, hq, hp,
    shortBody_written hm (writtenAs_quoteChar hm)]
  dsimp only
  rw [List.drop_left' rfl, hclose, if_neg (by decide), if_neg Bool.false_ne_true, if_pos rfl,
    Option.map_some, Nat.zero_add, List.length_cons, List.length_append, List.length_singleton]
  exact congrArg some (by omega)

end ByteScript
