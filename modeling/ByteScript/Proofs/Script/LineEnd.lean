import ByteScript.Proofs.Script.Scanning

/-!
# Patterns and the ends of lines

Most patterns look at the first line of a text only, so they match the same whatever comes after
it. Directives, comments and strings that are closed do so as well, wherever they end.

* `EndsLine`: texts that end with a line feed;
* `firstLine`: the part of a text in front of its first line feed; `takeWhile_firstLine` and
  others: runs that stay within it;
* `LineEndsBetween`: a line ends where two texts meet; `firstLine_append`;
* `Pattern.InLine`, **`inLine_definition`** and others: patterns that look at the first line;
* `pad_append`, `comment_append`: patterns with an end of their own;
* `IsUnclosed`: strings in triple marks that run on; `not_isUnclosed_of_unquote`: they are no
  literals;
* **`string_append`**: all others.
-/

namespace ByteScript

/-- The last character is a line feed. -/
def EndsLine (s : Text) : Prop := ∃ t, s = t ++ ['\n']

/-- What is left of a text is empty or ends with the line feed. -/
theorem EndsLine.drop {s : Text} (h : EndsLine s) (n : Nat) :
    s.drop n = [] ∨ EndsLine (s.drop n) := by
  obtain ⟨t, rfl⟩ := h
  by_cases hn : n ≤ t.length
  · exact Or.inr ⟨t.drop n, by rw [List.drop_append_of_le_length hn]⟩
  · refine Or.inl (List.drop_eq_nil_of_le ?_)
    rw [List.length_append, List.length_singleton]
    omega

/-! ## First lines -/

/-- The characters in front of the first line feed. -/
def firstLine (s : Text) : Text := s.takeWhile (· != '\n')

theorem firstLine_lineFeed (s : Text) : firstLine ('\n' :: s) = [] := rfl

theorem firstLine_cons {c : Char} (h : c ≠ '\n') (s : Text) :
    firstLine (c :: s) = c :: firstLine s :=
  List.takeWhile_cons_of_pos (bne_iff_ne.mpr h)

theorem firstLine_append_lineFeed (s r : Text) : firstLine (s ++ '\n' :: r) = firstLine s := by
  induction s with
  | nil => rfl
  | cons c s ih =>
    by_cases hc : c = '\n'
    · subst hc
      rfl
    · rw [List.cons_append, firstLine_cons hc, firstLine_cons hc, ih]

/-- A line ends where the two texts meet, unless the first one is empty. -/
def LineEndsBetween (s r : Text) : Prop :=
  s = [] ∨ EndsLine s ∨ r.head?.all (· == '\n') = true

namespace LineEndsBetween

variable {s r : Text}

theorem of_endsLine (h : s = [] ∨ EndsLine s) (r : Text) : LineEndsBetween s r :=
  h.imp_right Or.inl

theorem lineFeed (s r : Text) : LineEndsBetween s ('\n' :: r) := Or.inr (Or.inr rfl)

theorem drop (h : LineEndsBetween s r) (n : Nat) : LineEndsBetween (s.drop n) r := by
  rcases h with rfl | h | h
  · exact Or.inl List.drop_nil
  · exact (h.drop n).imp_right Or.inl
  · exact Or.inr (Or.inr h)

/-- The first line of a text is that of the text alone. -/
theorem firstLine_append (h : LineEndsBetween s r) (hne : s ≠ []) :
    firstLine (s ++ r) = firstLine s := by
  rcases h with h | ⟨t, rfl⟩ | h
  · exact absurd h hne
  · rw [List.append_assoc, List.singleton_append, firstLine_append_lineFeed,
      firstLine_append_lineFeed]
  · cases r with
    | nil => rw [List.append_nil]
    | cons c r =>
      rw [List.head?_cons, Option.all_some, beq_iff_eq] at h
      rw [h, firstLine_append_lineFeed]

end LineEndsBetween

/-! ## Runs -/

theorem length_takeWhile_le {α : Type} (p : α → Bool) (s : List α) :
    (s.takeWhile p).length ≤ s.length := (List.takeWhile_prefix p).length_le

theorem nameLength_le (s : Text) : nameLength s ≤ s.length := by
  cases s with
  | nil => exact Nat.le_refl 0
  | cons c s =>
    have := length_takeWhile_le isNameChar s
    rw [nameLength, List.length_cons]
    split <;> omega

theorem signLength_le (s : Text) : signLength s ≤ s.length := by
  unfold signLength
  split
  · exact Nat.le_add_left 1 _
  · exact Nat.le_add_left 1 _
  · exact Nat.zero_le _

/-- A run that a line feed ends is one of the first line. -/
theorem takeWhile_firstLine {p : Char → Bool} (hp : p '\n' = false) (s : Text) :
    (firstLine s).takeWhile p = s.takeWhile p := by
  induction s with
  | nil => rfl
  | cons c s ih =>
    by_cases hc : c = '\n'
    · subst hc
      rw [firstLine_lineFeed, List.takeWhile_nil, List.takeWhile_cons, hp]
      rfl
    · rw [firstLine_cons hc, List.takeWhile_cons, List.takeWhile_cons, ih]

theorem drop_firstLine {s : Text} {n : Nat} (h : n ≤ (firstLine s).length) :
    (firstLine s).drop n = firstLine (s.drop n) := by
  induction n generalizing s with
  | zero => rfl
  | succ n ih =>
    cases s with
    | nil => rfl
    | cons c s =>
      have hc : c ≠ '\n' := by
        rintro rfl
        exact absurd h (Nat.not_succ_le_zero n)
      rw [firstLine_cons hc] at h ⊢
      exact ih (Nat.le_of_succ_le_succ h)

theorem digitsLength_firstLine (s : Text) : digitsLength (firstLine s) = digitsLength s := by
  rw [digitsLength, digitsLength, takeWhile_firstLine (by decide)]

theorem nameLength_firstLine (s : Text) : nameLength (firstLine s) = nameLength s := by
  cases s with
  | nil => rfl
  | cons c s =>
    by_cases hc : c = '\n'
    · subst hc
      rfl
    · rw [firstLine_cons hc, nameLength, nameLength, takeWhile_firstLine (by decide)]

theorem signLength_firstLine (s : Text) : signLength (firstLine s) = signLength s := by
  cases s with
  | nil => rfl
  | cons c s =>
    by_cases hc : c = '\n'
    · subst hc
      rfl
    · rw [firstLine_cons hc]
      unfold signLength
      split <;> split <;> simp_all

/-- What a run of the first line leaves of it is the first line of what it leaves. -/
theorem drop_length_takeWhile {p : Char → Bool} (hp : p '\n' = false) (s : Text) :
    (firstLine s).drop (s.takeWhile p).length = firstLine (s.drop (s.takeWhile p).length) := by
  refine drop_firstLine ?_
  rw [← takeWhile_firstLine hp]
  exact length_takeWhile_le p _

theorem drop_nameLength (s : Text) :
    (firstLine s).drop (nameLength s) = firstLine (s.drop (nameLength s)) :=
  drop_firstLine (nameLength_firstLine s ▸ nameLength_le (firstLine s))

theorem drop_signLength (s : Text) :
    (firstLine s).drop (signLength s) = firstLine (s.drop (signLength s)) :=
  drop_firstLine (signLength_firstLine s ▸ signLength_le (firstLine s))

/-- A prefix without a line feed is one of the first line. -/
theorem isPrefixOf_firstLine {p : Text} (hp : '\n' ∉ p) (s : Text) :
    p.isPrefixOf (firstLine s) = p.isPrefixOf s := by
  induction p generalizing s with
  | nil => rw [List.isPrefixOf_nil_left, List.isPrefixOf_nil_left]
  | cons a p ih =>
    obtain ⟨ha, hp⟩ := not_or.mp (List.mem_cons.not.mp hp)
    cases s with
    | nil => rfl
    | cons c s =>
      by_cases hc : c = '\n'
      · subst hc
        rw [firstLine_lineFeed, List.isPrefixOf_cons_cons, beq_eq_false_iff_ne.mpr (Ne.symm ha),
          Bool.false_and, List.isPrefixOf_cons_nil]
      · rw [firstLine_cons hc, List.isPrefixOf_cons_cons, List.isPrefixOf_cons_cons, ih hp]

/-! ## Patterns within a line -/

/-- The pattern looks at the first line only. -/
def Pattern.InLine (p : Pattern) : Prop := ∀ s, p (firstLine s) = p s

/-- A pattern that can match after one character only looks at the first line if it does so after
that character. -/
theorem inLine_of_mark {p : Pattern} {m : Char} (hmark : m ≠ '\n') (hnil : p [] = none)
    (hother : ∀ c s, c ≠ m → p (c :: s) = none)
    (h : ∀ s, p (m :: firstLine s) = p (m :: s)) : p.InLine := by
  intro s
  cases s with
  | nil => rfl
  | cons c s =>
    by_cases hc : c = m
    · rw [hc, firstLine_cons hmark, h]
    · rw [hother c s hc]
      by_cases hfeed : c = '\n'
      · rw [hfeed, firstLine_lineFeed, hnil]
      · rw [firstLine_cons hfeed, hother c _ hc]

theorem inLine_definition : Pattern.definition.InLine := by
  refine inLine_of_mark (m := '$') (by decide) rfl
    (fun c s hc => definition_eq_none (beq_eq_false_iff_ne.mpr hc)) fun s => ?_
  simp only [Pattern.definition, nameLength_firstLine, drop_nameLength]
  cases s.drop (nameLength s) with
  | nil => rfl
  | cons d r =>
    by_cases hfeed : d = '\n'
    · subst hfeed
      rfl
    · rw [firstLine_cons hfeed]
      by_cases he : d = '='
      · subst he
        simp only [takeWhile_firstLine (p := (· != '\n')) rfl]
      · split <;> split <;> simp_all

theorem inLine_sizeDefinition : Pattern.sizeDefinition.InLine := by
  refine inLine_of_mark (m := '@') (by decide) rfl
    (fun c s hc => sizeDefinition_eq_none (beq_eq_false_iff_ne.mpr hc)) fun s => ?_
  simp only [Pattern.sizeDefinition, nameLength_firstLine, drop_nameLength]
  cases s.drop (nameLength s) with
  | nil => rfl
  | cons d r =>
    by_cases hfeed : d = '\n'
    · subst hfeed
      rfl
    · rw [firstLine_cons hfeed]
      by_cases he : d = '='
      · subst he
        simp only [digitsLength_firstLine]
      · split <;> split <;> simp_all

theorem inLine_float : Pattern.float.InLine := by
  intro s
  have hdrop : (firstLine s).drop (signLength s + digitsLength (s.drop (signLength s))) =
      firstLine (s.drop (signLength s + digitsLength (s.drop (signLength s)))) := by
    rw [← List.drop_drop, ← List.drop_drop, drop_signLength]
    exact drop_length_takeWhile (by decide) _
  simp only [Pattern.float, signLength_firstLine, drop_signLength, digitsLength_firstLine, hdrop]
  cases s.drop (signLength s + digitsLength (s.drop (signLength s))) with
  | nil => rfl
  | cons d r =>
    by_cases hfeed : d = '\n'
    · subst hfeed
      rfl
    · rw [firstLine_cons hfeed]
      by_cases he : d = '.'
      · subst he
        simp only [digitsLength_firstLine]
      · split <;> split <;> simp_all

theorem inLine_integer : Pattern.integer.InLine := by
  intro s
  cases s with
  | nil => rfl
  | cons c s =>
    by_cases hfeed : c = '\n'
    · subst hfeed
      rw [firstLine_lineFeed, integer_eq_none rfl]
      rfl
    · simp only [Pattern.integer, signLength_firstLine]
      rw [firstLine_cons hfeed, List.drop_succ_cons, List.drop_succ_cons, List.drop_zero,
        List.drop_zero, digitsLength_firstLine]

theorem inLine_hex : Pattern.hex.InLine := by
  refine inLine_of_mark (m := '#') (by decide) rfl
    (fun c s hc => hex_eq_none (beq_eq_false_iff_ne.mpr hc)) fun s => ?_
  simp only [Pattern.hex, takeWhile_firstLine (p := isHexDigit) rfl]

theorem inLine_binary : Pattern.binary.InLine := by
  intro s
  cases s with
  | nil => rfl
  | cons c s =>
    by_cases hfeed : c = '\n'
    · subst hfeed
      rfl
    · rw [firstLine_cons hfeed]
      simp only [Pattern.binary,
        takeWhile_firstLine (p := fun c => c == '0' || c == '1' || c == ' ' || c == '_') rfl]

theorem inLine_reference : Pattern.reference.InLine := by
  intro s
  cases s with
  | nil => rfl
  | cons c s =>
    by_cases hd : c = '$'
    · subst hd
      rw [firstLine_cons (by decide)]
      simp only [Pattern.reference, nameLength_firstLine]
    · have hname := nameLength_firstLine (c :: s)
      by_cases hfeed : c = '\n'
      · subst hfeed
        rfl
      · rw [firstLine_cons hfeed] at hname ⊢
        unfold Pattern.reference
        split <;> split <;> simp_all

/-! ## Patterns with an end of their own -/

theorem pad_append {s : Text} {n : Nat} (h : Pattern.pad s = some n) (r : Text) :
    Pattern.pad (s ++ r) = some n := by
  unfold Pattern.pad at h
  split at h
  · rename_i s
    dsimp only at h
    split at h
    · rename_i hlt
      have hrun : (s ++ r).takeWhile (· != ']') = s.takeWhile (· != ']') := by
        rw [List.takeWhile_append]
        exact if_neg (Nat.ne_of_lt hlt)
      have hlt' : (s.takeWhile (· != ']')).length < (s ++ r).length := by
        rw [List.length_append]
        omega
      rw [List.cons_append, Pattern.pad, hrun, if_pos hlt']
      exact h
    · cases h
  · cases h

theorem commentBody_append {star : Bool} {s : Text} {n : Nat}
    (h : Pattern.commentBody star s = some n) (r : Text) :
    Pattern.commentBody star (s ++ r) = some n := by
  induction s generalizing star n with
  | nil => cases h
  | cons c s ih =>
    rw [Pattern.commentBody] at h
    rw [List.cons_append, Pattern.commentBody]
    split at h
    · rename_i hclose
      rw [if_pos hclose]
      exact h
    · rename_i hopen
      obtain ⟨m, hm, rfl⟩ := Option.map_eq_some_iff.mp h
      rw [if_neg hopen, ih hm]
      rfl

theorem comment_append {s : Text} {n : Nat} (h : Pattern.comment s = some n) (r : Text) :
    Pattern.comment (s ++ r) = some n := by
  unfold Pattern.comment at h
  split at h
  · obtain ⟨m, hm, rfl⟩ := Option.map_eq_some_iff.mp h
    rw [List.cons_append, List.cons_append, Pattern.comment, commentBody_append hm]
    rfl
  · cases h

/-! ## Strings -/

theorem shortBody_le (mark : Char) (s : Text) : Pattern.shortBody mark s ≤ s.length := by
  fun_induction Pattern.shortBody mark s <;>
    simp only [List.length_cons, List.length_nil] <;> omega

/-- A body in single marks ends within its line. -/
theorem shortBody_firstLine (mark : Char) (s : Text) :
    Pattern.shortBody mark (firstLine s) = Pattern.shortBody mark s := by
  fun_induction Pattern.shortBody mark s with
  | case1 => rfl
  | case2 => rfl
  | case3 s => rfl
  | case4 c s hc ih =>
    rw [firstLine_cons (by decide), firstLine_cons hc, Pattern.shortBody, if_neg hc, ih]
  | case5 c s h₁ h₂ hstop =>
    by_cases hfeed : c = '\n'
    · subst hfeed
      rfl
    · rw [firstLine_cons hfeed, shortBody_cons (ne_backslash h₁ h₂), if_pos hstop]
  | case6 c s h₁ h₂ hgo ih =>
    rw [firstLine_cons (not_or.mp hgo).2, shortBody_cons (ne_backslash h₁ h₂), if_neg hgo, ih]

theorem drop_shortBody (mark : Char) (s : Text) :
    (firstLine s).drop (Pattern.shortBody mark s) =
      firstLine (s.drop (Pattern.shortBody mark s)) :=
  drop_firstLine (shortBody_firstLine mark s ▸ shortBody_le mark (firstLine s))

theorem longBody_cons {mark c : Char} (h : c ≠ '\\') (pending : Nat) (s : Text) :
    Pattern.longBody mark pending (c :: s) =
      if c = mark then if pending = 2 then 0 else Pattern.longBody mark (pending + 1) s
      else pending + 1 + Pattern.longBody mark 0 s :=
  Pattern.longBody.eq_4 _ _ _ _ (fun hc _ => absurd hc h) (fun _ _ hc => absurd hc h)

/-- Less than three marks and something else do not close a body. -/
theorem not_isPrefixOf_three {mark : Char} {k : Nat} (hk : k ≤ 2) {t : Text}
    (ht : t.head? ≠ some mark) :
    [mark, mark, mark].isPrefixOf (List.replicate k mark ++ t) = false := by
  have hcases : k = 0 ∨ k = 1 ∨ k = 2 := by omega
  cases t with
  | nil => rcases hcases with rfl | rfl | rfl <;> simp [List.isPrefixOf, List.replicate]
  | cons c t =>
    have hne : mark ≠ c := by
      rintro rfl
      exact ht rfl
    rcases hcases with rfl | rfl | rfl <;> simp [List.isPrefixOf, List.replicate, hne]

theorem drop_replicate_append {α : Type} (k n : Nat) (a : α) (s : List α) :
    (List.replicate k a ++ s).drop (k + n) = s.drop n := by
  rw [← List.drop_drop, List.drop_left' List.length_replicate]

/-- A body in triple marks that is closed is the same whatever follows; `pending` marks stand
before what is read. -/
theorem longBody_append {mark : Char} (hmark : mark ≠ '\\') {pending : Nat} (hp : pending ≤ 2)
    {s : Text} (hclosed : [mark, mark, mark].isPrefixOf
      ((List.replicate pending mark ++ s).drop (Pattern.longBody mark pending s)) = true)
    (r : Text) : Pattern.longBody mark pending (s ++ r) = Pattern.longBody mark pending s := by
  fun_induction Pattern.longBody mark pending s with
  | case1 pending =>
    rw [List.drop_zero, not_isPrefixOf_three hp (by simp)] at hclosed
    cases hclosed
  | case2 pending =>
    rw [List.drop_zero, not_isPrefixOf_three hp (by simpa using hmark.symm)] at hclosed
    cases hclosed
  | case3 pending s =>
    rw [List.cons_append, List.cons_append, Pattern.longBody, if_pos rfl]
  | case4 pending c s hc ih =>
    rw [Nat.add_assoc, drop_replicate_append, ← List.drop_drop] at hclosed
    rw [List.cons_append, List.cons_append, Pattern.longBody, if_neg hc,
      ih (Nat.zero_le _) hclosed]
  | case5 s h₁ h₂ =>
    rw [List.cons_append, longBody_cons hmark, if_pos rfl, if_pos rfl]
  | case6 pending s hpending h₁ h₂ ih =>
    rw [List.cons_append, longBody_cons hmark, if_pos rfl, if_neg hpending]
    refine ih (by omega) ?_
    rw [List.replicate_succ', List.append_assoc]
    exact hclosed
  | case7 pending c s h₁ h₂ hc ih =>
    rw [Nat.add_assoc, drop_replicate_append, ← List.drop_drop] at hclosed
    rw [List.cons_append, longBody_cons (ne_backslash h₁ h₂), if_neg hc,
      ih (Nat.zero_le _) hclosed]

section Triple

variable {mark : Char} (hmark : mark ≠ '\\')

theorem endsAt_triple (s : Text) :
    (Delimiter.mk mark true).endsAt s = [mark, mark, mark].isPrefixOf s := by
  rw [Delimiter.endsAt, Bool.not_true, Bool.false_and, Bool.or_false]
  rfl

include hmark

theorem bodyUntil_replicate {k : Nat} (hk : k ≤ 2) {t : Text} (ht : t.head? ≠ some mark) :
    bodyUntil (Delimiter.mk mark true).endsAt (List.replicate k mark ++ t) =
      (List.replicate k mark ++ (bodyUntil (Delimiter.mk mark true).endsAt t).1,
        (bodyUntil (Delimiter.mk mark true).endsAt t).2) := by
  induction k with
  | zero => rfl
  | succ k ih =>
    have hstop := not_isPrefixOf_three hk ht
    rw [← endsAt_triple, List.replicate_succ, List.cons_append] at hstop
    rw [List.replicate_succ, List.cons_append, bodyUntil_cons hmark, hstop,
      if_neg Bool.false_ne_true, ih (by omega)]
    rfl

/-- What is read of a body in triple marks does not close it, so all of it are units. -/
theorem bodyUntil_longBody {pending : Nat} (hp : pending ≤ 2) (s : Text) :
    bodyUntil (Delimiter.mk mark true).endsAt
        ((List.replicate pending mark ++ s).take (Pattern.longBody mark pending s)) =
      ((List.replicate pending mark ++ s).take (Pattern.longBody mark pending s), []) := by
  have take_run : ∀ (k n : Nat) (t : Text), (List.replicate k mark ++ t).take (k + n) =
      List.replicate k mark ++ t.take n := by
    intro k n t
    rw [List.take_add, List.take_left' List.length_replicate,
      List.drop_left' List.length_replicate]
  fun_induction Pattern.longBody mark pending s with
  | case1 pending => rfl
  | case2 pending => rfl
  | case3 pending s => rfl
  | case4 pending c s hc ih =>
    have hstop : (Delimiter.mk mark true).endsAt
        ('\\' :: c :: s.take (Pattern.longBody mark 0 s)) = false := by
      rw [endsAt_triple]
      exact not_isPrefixOf_three (Nat.zero_le 2) (by simpa using hmark.symm)
    rw [Nat.add_assoc, take_run, Nat.add_comm 2, List.take_succ_cons, List.take_succ_cons,
      bodyUntil_replicate hmark hp (by simpa using hmark.symm), bodyUntil, hstop,
      if_neg Bool.false_ne_true]
    have := ih (Nat.zero_le _)
    rw [List.replicate_zero, List.nil_append] at this
    rw [this]
  | case5 s h₁ h₂ => rfl
  | case6 pending s hpending h₁ h₂ ih =>
    have := ih (by omega)
    rwa [List.replicate_succ', List.append_assoc] at this
  | case7 pending c s h₁ h₂ hc ih =>
    have hstop : (Delimiter.mk mark true).endsAt (c :: s.take (Pattern.longBody mark 0 s)) =
        false := by
      rw [endsAt_triple]
      exact not_isPrefixOf_three (Nat.zero_le 2) (by simpa using hc)
    rw [Nat.add_assoc, take_run, Nat.add_comm 1, List.take_succ_cons,
      bodyUntil_replicate hmark hp (by simpa using hc), bodyUntil_cons (ne_backslash h₁ h₂), hstop,
      if_neg Bool.false_ne_true]
    have := ih (Nat.zero_le _)
    rw [List.replicate_zero, List.nil_append] at this
    rw [this]

end Triple

theorem quoted_cons {c : Char} (hc : isQuote c = true) (s : Text) :
    Pattern.quoted (c :: s) =
      if [c, c].isPrefixOf s then
        some (3 + Pattern.longBody c 0 (s.drop 2) +
          if [c, c, c].isPrefixOf (s.drop (2 + Pattern.longBody c 0 (s.drop 2))) then 3 else 0)
      else
        some (1 + Pattern.shortBody c s +
          if [c].isPrefixOf (s.drop (Pattern.shortBody c s)) then 1 else 0) := by
  rw [Pattern.quoted, hc]
  rfl

theorem quoted_triple {c : Char} (hc : isQuote c = true) (t : Text) :
    Pattern.quoted (c :: c :: c :: t) = some (3 + Pattern.longBody c 0 t +
      if [c, c, c].isPrefixOf (t.drop (Pattern.longBody c 0 t)) then 3 else 0) := by
  have htriple : [c, c].isPrefixOf (c :: c :: t) = true := by simp [List.isPrefixOf]
  rw [quoted_cons hc, if_pos htriple, ← List.drop_drop]
  rfl

/-- A body in triple marks that is not closed has no value. -/
theorem unquote_open {c : Char} (hm : c = '\'' ∨ c = '"') (t : Text) :
    unquote (c :: c :: c :: t.take (Pattern.longBody c 0 t)) = .error .malformed := by
  have hne : c ≠ '\\' := by rcases hm with rfl | rfl <;> decide
  have hopen : Delimiter.opening? (c :: c :: c :: t.take (Pattern.longBody c 0 t)) =
      some ⟨c, true⟩ := by
    rw [Delimiter.opening?, if_pos hm]
    simp [List.isPrefixOf]
  have hbody := bodyUntil_longBody hne (Nat.zero_le 2) t
  rw [List.replicate_zero, List.nil_append] at hbody
  have hlit : Literal.ofText? (c :: c :: c :: t.take (Pattern.longBody c 0 t)) = none := by
    unfold Literal.ofText?
    simp only [lettersOf_of_mark hm, List.length_nil, List.drop_zero, hopen]
    have ht : (Delimiter.mk c true).text = [c, c, c] := rfl
    rw [ht, List.length_cons, List.length_cons, List.length_singleton, List.drop_succ_cons,
      List.drop_succ_cons, List.drop_succ_cons, List.drop_zero, hbody]
    exact if_neg (List.cons_ne_nil _ _).symm
  rw [unquote, hlit]

/-- The text starts with a string in triple marks that is not closed. -/
def IsUnclosed (s : Text) : Prop :=
  ∃ c t, (c = '\'' ∨ c = '"') ∧ s = c :: c :: c :: t ∧
    [c, c, c].isPrefixOf (t.drop (Pattern.longBody c 0 t)) = false

/-- A string in triple marks that is closed is the same whatever follows. -/
theorem quoted_triple_append {c : Char} (hc : isQuote c = true) (hne : c ≠ '\\') {t : Text}
    (hclosed : [c, c, c].isPrefixOf (t.drop (Pattern.longBody c 0 t)) = true) (r : Text) :
    Pattern.quoted (c :: c :: c :: (t ++ r)) = Pattern.quoted (c :: c :: c :: t) := by
  have hclose := List.isPrefixOf_iff_prefix.mp hclosed
  have hle : Pattern.longBody c 0 t ≤ t.length := by
    have := hclose.length_le
    rw [List.length_drop] at this
    simp only [List.length_cons, List.length_nil] at this
    omega
  have hclosed' : [c, c, c].isPrefixOf ((t ++ r).drop (Pattern.longBody c 0 t)) = true := by
    rw [List.drop_append_of_le_length hle]
    exact List.isPrefixOf_iff_prefix.mpr (hclose.trans (List.prefix_append _ _))
  rw [quoted_triple hc, quoted_triple hc, longBody_append hne (Nat.zero_le 2) hclosed r,
    if_pos hclosed, if_pos hclosed']

/-- A string in single marks ends within its line. -/
theorem quoted_single_firstLine {c : Char} (hc : isQuote c = true) (hne : c ≠ '\n') {s : Text}
    (hsingle : ¬ [c, c].isPrefixOf s = true) :
    Pattern.quoted (c :: firstLine s) = Pattern.quoted (c :: s) := by
  rw [quoted_cons hc, quoted_cons hc, isPrefixOf_firstLine (by simpa using hne.symm),
    if_neg hsingle, if_neg hsingle, shortBody_firstLine, drop_shortBody,
    isPrefixOf_firstLine (by simpa using hne.symm)]

theorem string_of_mark {c : Char} (hm : c = '\'' ∨ c = '"') (s : Text) :
    Pattern.string (c :: s) = Pattern.quoted (c :: s) := by
  rw [Pattern.string, lettersLength_of_mark hm, List.drop_zero]
  simp

/-- A string that is a literal is closed. -/
theorem not_isUnclosed_of_unquote {s : Text} {n : Nat} (hn : Pattern.string s = some n)
    (hliteral : unquote (s.take n) ≠ .error .malformed) : ¬ IsUnclosed s := by
  rintro ⟨c, t, hm, rfl, hopen⟩
  have hc := isQuote_iff_mark.mpr hm
  rw [string_of_mark hm, quoted_triple hc, hopen, if_neg Bool.false_ne_true, Nat.add_zero,
    Nat.add_comm] at hn
  obtain rfl := Option.some.inj hn
  refine hliteral ?_
  rw [List.take_succ_cons, List.take_succ_cons, List.take_succ_cons, unquote_open hm]

/-- **A string is the same whatever follows**, unless it runs on in triple marks, if the line that it
starts on is. -/
theorem string_append {c : Char} (hc : isQuote c = true) {s r : Text}
    (hline : firstLine (c :: s ++ r) = firstLine (c :: s)) (hclosed : ¬ IsUnclosed (c :: s)) :
    Pattern.string (c :: s ++ r) = Pattern.string (c :: s) := by
  have hm := isQuote_iff_mark.mp hc
  have hne : c ≠ '\n' := by rcases hm with rfl | rfl <;> decide
  rw [List.cons_append, firstLine_cons hne, firstLine_cons hne] at hline
  have hline := (List.cons.inj hline).2
  rw [List.cons_append, string_of_mark hm, string_of_mark hm]
  by_cases htriple : [c, c].isPrefixOf s = true
  · obtain ⟨t, rfl⟩ := List.isPrefixOf_iff_prefix.mp htriple
    have hne' : c ≠ '\\' := by rcases hm with rfl | rfl <;> decide
    refine quoted_triple_append hc hne' ?_ r
    by_contra hopen
    exact hclosed ⟨c, t, hm, rfl, Bool.eq_false_iff.mpr hopen⟩
  · have hsingle : ¬ [c, c].isPrefixOf (s ++ r) = true := by
      rwa [← isPrefixOf_firstLine (by simpa using hne.symm), hline,
        isPrefixOf_firstLine (by simpa using hne.symm)]
    rw [← quoted_single_firstLine hc hne hsingle, hline, quoted_single_firstLine hc hne htriple]

end ByteScript
