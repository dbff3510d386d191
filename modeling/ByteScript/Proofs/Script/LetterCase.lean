import ByteScript.Proofs.Scan.Cut
import ByteScript.Proofs.Script.LineEnd
import ByteScript.Proofs.Text.LetterCase

/-!
# Patterns and the case of letters

No pattern of a script tells the cases of a letter apart, so texts with the same letters are cut into
pieces of the same kinds and lengths.

* `nameLength_lower`, `isIdentifier_lower_iff`, `digitsLength_lower`, `signLength_lower`: names and
  digits;
* `Pattern.IgnoresCase`, `ignoresCase_of_mark`: patterns that take the same in lower case;
* `shortBody_lower`, `longBody_lower`, `commentBody_lower`: bodies;
* **`ignoresCase_of_mem`**: all patterns of a script;
* `next_lower`, **`Table.CutsOff.of_lower_eq`**: the first piece of a text.
-/

namespace ByteScript

/-! ## Names and digits -/

theorem nameLength_lower (s : Text) : nameLength s.lower = nameLength s := by
  cases s with
  | nil => rfl
  | cons c s =>
    rw [lower_cons, nameLength, nameLength, isNameStart_lowerChar,
      takeWhile_lower isNameChar_lowerChar]

theorem isIdentifier_lower_iff {s : Text} : IsIdentifier s.lower ↔ IsIdentifier s := by
  have hhead : s.lower.head?.any isNameStart = s.head?.any isNameStart := by
    cases s with
    | nil => rfl
    | cons c s => exact isNameStart_lowerChar c
  rw [IsIdentifier, IsIdentifier, hhead, Text.lower, List.forall_mem_map]
  simp only [isNameChar_lowerChar]

theorem digitsLength_lower (s : Text) : digitsLength s.lower = digitsLength s :=
  takeWhile_lower isDigit_lowerChar s

theorem signLength_lower (s : Text) : signLength s.lower = signLength s := by
  cases s with
  | nil => rfl
  | cons c s =>
    by_cases hc : c = '+' ∨ c = '-'
    · rcases hc with rfl | rfl <;> rfl
    · have hlow : ¬ (Text.lowerChar c = '+' ∨ Text.lowerChar c = '-') := by
        rwa [lowerChar_eq_iff rfl, lowerChar_eq_iff rfl]
      have hzero : ∀ d t, ¬ (d = '+' ∨ d = '-') → signLength (d :: t) = 0 := fun d t hd =>
        signLength_eq_zero (by simpa [ScriptKind.startsWith] using hd)
      rw [lower_cons, hzero c s hc, hzero _ _ hlow]

/-- A character that is no letter comes first in a text exactly if it does in lower case. -/
theorem mark_cases {m : Char} (hm : m.isAlpha = false) (s : Text) :
    (∃ r, s = m :: r ∧ s.lower = m :: Text.lower r) ∨
      (∀ r, s ≠ m :: r) ∧ ∀ r, s.lower ≠ m :: r := by
  cases s with
  | nil => exact Or.inr ⟨nofun, nofun⟩
  | cons c s =>
    by_cases hc : c = m
    · subst hc
      exact Or.inl ⟨s, rfl, by rw [lower_cons, (lowerChar_eq_iff hm).mpr rfl]⟩
    · refine Or.inr ⟨fun r h => hc (List.cons.inj h).1, fun r h => ?_⟩
      exact hc ((lowerChar_eq_iff hm).mp (List.cons.inj h).1)

/-! ## Patterns -/

/-- The pattern takes the same of a text in lower case. -/
def Pattern.IgnoresCase (p : Pattern) : Prop := ∀ s, p s.lower = p s

/-- A pattern that can match after one character only, which is no letter, ignores case if it does
so after that character. -/
theorem ignoresCase_of_mark {p : Pattern} {m : Char} (hm : m.isAlpha = false) (hnil : p [] = none)
    (hother : ∀ c s, c ≠ m → p (c :: s) = none) (h : ∀ s, p (m :: Text.lower s) = p (m :: s)) :
    p.IgnoresCase := by
  have hnone : ∀ s, (∀ r, s ≠ m :: r) → p s = none := by
    intro s hs
    cases s with
    | nil => exact hnil
    | cons c s => exact hother c s fun hc => hs s (congrArg (· :: s) hc)
  intro s
  rcases mark_cases hm s with ⟨r, rfl, hlow⟩ | ⟨hs, hlow⟩
  · rw [hlow, h]
  · rw [hnone s hs, hnone _ hlow]

theorem ignoresCase_definition : Pattern.definition.IgnoresCase := by
  refine ignoresCase_of_mark (m := '$') rfl rfl
    (fun c s hc => definition_eq_none (beq_eq_false_iff_ne.mpr hc)) fun s => ?_
  simp only [Pattern.definition, nameLength_lower, ← lower_drop]
  generalize s.drop (nameLength s) = t
  rcases mark_cases (m := '=') rfl t with ⟨r, rfl, hlow⟩ | ⟨ht, hlow⟩
  · simp only [hlow, takeWhile_lower (p := (· != '\n')) (bne_lowerChar rfl) r]
  · split <;> simp_all

theorem ignoresCase_sizeDefinition : Pattern.sizeDefinition.IgnoresCase := by
  refine ignoresCase_of_mark (m := '@') rfl rfl
    (fun c s hc => sizeDefinition_eq_none (beq_eq_false_iff_ne.mpr hc)) fun s => ?_
  simp only [Pattern.sizeDefinition, nameLength_lower, ← lower_drop]
  generalize s.drop (nameLength s) = t
  rcases mark_cases (m := '=') rfl t with ⟨r, rfl, hlow⟩ | ⟨ht, hlow⟩
  · simp only [hlow, digitsLength_lower]
  · split <;> simp_all

theorem ignoresCase_pad : Pattern.pad.IgnoresCase := by
  refine ignoresCase_of_mark (m := '[') rfl rfl
    (fun c s hc => pad_eq_none (beq_eq_false_iff_ne.mpr hc)) fun s => ?_
  simp only [Pattern.pad, takeWhile_lower (p := (· != ']')) (bne_lowerChar rfl), Text.length_lower]

theorem ignoresCase_float : Pattern.float.IgnoresCase := by
  intro s
  simp only [Pattern.float, signLength_lower, ← lower_drop, digitsLength_lower]
  generalize s.drop (signLength s + digitsLength (s.drop (signLength s))) = t
  rcases mark_cases (m := '.') rfl t with ⟨r, rfl, hlow⟩ | ⟨ht, hlow⟩
  · simp only [hlow, digitsLength_lower]
  · split <;> simp_all

theorem ignoresCase_integer : Pattern.integer.IgnoresCase := by
  intro s
  simp only [Pattern.integer, signLength_lower, ← lower_drop, digitsLength_lower]

theorem ignoresCase_hex : Pattern.hex.IgnoresCase := by
  refine ignoresCase_of_mark (m := '#') rfl rfl
    (fun c s hc => hex_eq_none (beq_eq_false_iff_ne.mpr hc)) fun s => ?_
  simp only [Pattern.hex, takeWhile_lower isHexDigit_lowerChar]

theorem ignoresCase_binary : Pattern.binary.IgnoresCase := by
  intro s
  cases s with
  | nil => rfl
  | cons c s =>
    have hrun := takeWhile_lower (p := fun c => c == '0' || c == '1' || c == ' ' || c == '_')
      (fun c => by simp only [beq_lowerChar (m := '0') rfl, beq_lowerChar (m := '1') rfl,
        beq_lowerChar (m := ' ') rfl, beq_lowerChar (m := '_') rfl]) s
    rw [lower_cons, Pattern.binary, Pattern.binary, hrun, beq_lowerChar rfl, beq_lowerChar rfl]

theorem ignoresCase_reference : Pattern.reference.IgnoresCase := by
  intro s
  rcases mark_cases (m := '$') rfl s with ⟨r, rfl, hlow⟩ | ⟨hs, hlow⟩
  · rw [hlow, Pattern.reference, Pattern.reference, nameLength_lower]
  · rw [Pattern.reference.eq_2 _ hs, Pattern.reference.eq_2 _ hlow, nameLength_lower]

theorem ignoresCase_many1 {p : Char → Bool} (hp : ∀ c, p (Text.lowerChar c) = p c) :
    (Pattern.many1 p).IgnoresCase := by
  intro s
  simp only [Pattern.many1, takeWhile_lower hp]

/-! ## Comments -/

theorem commentBody_lower (star : Bool) (s : Text) :
    Pattern.commentBody star s.lower = Pattern.commentBody star s := by
  induction s generalizing star with
  | nil => rfl
  | cons c s ih =>
    rw [lower_cons, Pattern.commentBody, Pattern.commentBody, beq_lowerChar rfl, beq_lowerChar rfl,
      ih]

theorem ignoresCase_comment : Pattern.comment.IgnoresCase := by
  refine ignoresCase_of_mark (m := '/') rfl rfl
    (fun c s hc => comment_eq_none (beq_eq_false_iff_ne.mpr hc)) fun s => ?_
  rcases mark_cases (m := '*') rfl s with ⟨r, rfl, hlow⟩ | ⟨hs, hlow⟩
  · rw [hlow, Pattern.comment, Pattern.comment, commentBody_lower]
  · have hnone : ∀ t, (∀ r, t ≠ '*' :: r) → Pattern.comment ('/' :: t) = none := fun t ht =>
      Pattern.comment.eq_2 _ fun r h => ht r (List.cons.inj h).2
    rw [hnone s hs, hnone _ hlow]

/-! ## Strings -/

section Strings

variable {mark : Char}

theorem shortBody_lower (hm : mark.isAlpha = false) (s : Text) :
    Pattern.shortBody mark s.lower = Pattern.shortBody mark s := by
  fun_induction Pattern.shortBody mark s with
  | case1 => rfl
  | case2 => rfl
  | case3 s => rfl
  | case4 c s hc ih =>
    have hfeed : Text.lowerChar c ≠ '\n' := mt (lowerChar_eq_iff rfl).mp hc
    rw [lower_cons, lower_cons, (lowerChar_eq_iff rfl).mpr rfl, Pattern.shortBody, if_neg hfeed, ih]
  | case5 c s h₁ h₂ hstop =>
    have hslash : Text.lowerChar c ≠ '\\' := mt (lowerChar_eq_iff rfl).mp (ne_backslash h₁ h₂)
    have hends : Text.lowerChar c = mark ∨ Text.lowerChar c = '\n' := by
      rwa [lowerChar_eq_iff hm, lowerChar_eq_iff rfl]
    rw [lower_cons, shortBody_cons hslash, if_pos hends]
  | case6 c s h₁ h₂ hgo ih =>
    have hslash : Text.lowerChar c ≠ '\\' := mt (lowerChar_eq_iff rfl).mp (ne_backslash h₁ h₂)
    have hgoes : ¬ (Text.lowerChar c = mark ∨ Text.lowerChar c = '\n') := by
      rwa [lowerChar_eq_iff hm, lowerChar_eq_iff rfl]
    rw [lower_cons, shortBody_cons hslash, if_neg hgoes, ih]

theorem longBody_lower (hm : mark.isAlpha = false) (pending : Nat) (s : Text) :
    Pattern.longBody mark pending s.lower = Pattern.longBody mark pending s := by
  fun_induction Pattern.longBody mark pending s with
  | case1 pending => rfl
  | case2 pending => rfl
  | case3 pending s => rfl
  | case4 pending c s hc ih =>
    have hfeed : Text.lowerChar c ≠ '\n' := mt (lowerChar_eq_iff rfl).mp hc
    rw [lower_cons, lower_cons, (lowerChar_eq_iff rfl).mpr rfl, Pattern.longBody, if_neg hfeed, ih]
  | case5 s h₁ h₂ =>
    rw [lower_cons, (lowerChar_eq_iff hm).mpr rfl, longBody_cons (ne_backslash h₁ h₂), if_pos rfl,
      if_pos rfl]
  | case6 pending s hpending h₁ h₂ ih =>
    rw [lower_cons, (lowerChar_eq_iff hm).mpr rfl, longBody_cons (ne_backslash h₁ h₂), if_pos rfl,
      if_neg hpending, ih]
  | case7 pending c s h₁ h₂ hc ih =>
    have hslash : Text.lowerChar c ≠ '\\' := mt (lowerChar_eq_iff rfl).mp (ne_backslash h₁ h₂)
    have hother : Text.lowerChar c ≠ mark := mt (lowerChar_eq_iff hm).mp hc
    rw [lower_cons, longBody_cons hslash, if_neg hother, ih]

theorem ignoresCase_quoted : Pattern.quoted.IgnoresCase := by
  intro s
  cases s with
  | nil => rfl
  | cons c s =>
    by_cases hc : isQuote c = true
    · have hm : c.isAlpha = false := by
        rcases isQuote_iff_mark.mp hc with rfl | rfl <;> rfl
      have hone : ∀ t : Text, [c].isPrefixOf t.lower = [c].isPrefixOf t :=
        isPrefixOf_lower (by simpa using hm)
      have htwo : ∀ t : Text, [c, c].isPrefixOf t.lower = [c, c].isPrefixOf t :=
        isPrefixOf_lower (by simpa using hm)
      have hthree : ∀ t : Text, [c, c, c].isPrefixOf t.lower = [c, c, c].isPrefixOf t :=
        isPrefixOf_lower (by simpa using hm)
      rw [lower_cons, (lowerChar_eq_iff hm).mpr rfl, quoted_cons hc, quoted_cons hc]
      simp only [← lower_drop, longBody_lower hm, shortBody_lower hm, hone, htwo, hthree]
    · have hnone : ∀ d t, isQuote d = false → Pattern.quoted (d :: t) = none := fun d t hd => by
        rw [Pattern.quoted, hd]
        rfl
      rw [Bool.not_eq_true] at hc
      rw [lower_cons, hnone c s hc, hnone _ _ (isQuote_lowerChar c ▸ hc)]

theorem lettersLength_lower (s : Text) : Pattern.lettersLength s.lower = Pattern.lettersLength s := by
  have hsame : ∀ n l, Text.sameLetters (s.lower.take n) l = Text.sameLetters (s.take n) l := by
    intro n l
    rw [Text.sameLetters, Text.sameLetters, ← lower_take, lower_lower]
  have hquote : ∀ n, (s.lower.drop n).head?.any isQuote = (s.drop n).head?.any isQuote := by
    intro n
    rw [← lower_drop, head?_lower, Option.any_map]
    exact congrArg (Option.any · _) (funext isQuote_lowerChar)
  simp only [Pattern.lettersLength, hsame, hquote]

theorem ignoresCase_string : Pattern.string.IgnoresCase := by
  intro s
  rw [Pattern.string, Pattern.string, lettersLength_lower, ← lower_drop, ignoresCase_quoted]

end Strings

/-! ## The first piece of a text -/

/-- **No pattern of a script tells the cases of a letter apart.** -/
theorem ignoresCase_of_mem {e : ScriptKind × Pattern} (he : e ∈ scriptTable.patterns) :
    e.2.IgnoresCase := by
  simp only [scriptTable, List.mem_cons, List.not_mem_nil, or_false] at he
  rcases he with rfl | rfl | rfl | rfl | rfl | rfl | rfl | rfl | rfl | rfl | rfl
  exacts [ignoresCase_definition, ignoresCase_sizeDefinition, ignoresCase_pad, ignoresCase_float,
    ignoresCase_integer, ignoresCase_hex, ignoresCase_binary, ignoresCase_reference,
    ignoresCase_string, ignoresCase_comment, ignoresCase_many1 isBlank_lowerChar]

theorem findSome?_eq_of_forall {α β : Type} {f g : α → Option β} {l : List α}
    (h : ∀ a ∈ l, f a = g a) : l.findSome? f = l.findSome? g := by
  induction l with
  | nil => rfl
  | cons a l ih =>
    rw [List.findSome?_cons, List.findSome?_cons, h a List.mem_cons_self,
      ih fun b hb => h b (List.mem_cons_of_mem a hb)]

/-- The choice of a table depends on what its patterns take. -/
theorem Table.next_congr {κ : Type} {t : Table κ} {s s' : Text}
    (h : ∀ e ∈ t.patterns, e.2 s' = e.2 s) : t.next s' = t.next s := by
  rw [next_eq_firstNonempty, next_eq_firstNonempty]
  exact congrArg (Option.getD · _) (findSome?_eq_of_forall fun e he => by rw [h e he])

theorem next_lower (s : Text) : scriptTable.next s.lower = scriptTable.next s :=
  Table.next_congr fun _ he => ignoresCase_of_mem he s

/-- **Texts with the same letters are cut alike.** -/
theorem Table.CutsOff.of_lower_eq {k : ScriptKind} {a b a' b' : Text}
    (h : scriptTable.CutsOff k a b) (ha : a'.lower = a.lower) (hb : b'.lower = b.lower) :
    scriptTable.CutsOff k a' b' := by
  have length_eq : ∀ {s s' : Text}, s'.lower = s.lower → s'.length = s.length := fun hs => by
    rw [← Text.length_lower, hs, Text.length_lower]
  have hwhole : Text.lower (a' ++ b') = Text.lower (a ++ b) := by
    rw [lower_append, lower_append, ha, hb]
  have hnext : scriptTable.next (a' ++ b') = scriptTable.next (a ++ b) := by
    rw [← next_lower, hwhole, next_lower]
  refine ⟨fun hnil => ?_, by rw [hnext, h.kind], ?_⟩
  · have hlength := length_eq ha
    rw [hnil] at hlength
    exact h.ne_nil (List.length_eq_zero_iff.mp hlength.symm)
  · -- as many characters are taken, and they are the first ones
    have htake := congrArg List.length h.take
    rw [List.length_take, ← length_eq hwhole, ← length_eq ha] at htake
    rw [hnext]
    refine Eq.trans (List.take_eq_take_iff.mpr ?_) (List.take_left' rfl)
    rw [htake, List.length_append]
    omega

end ByteScript
