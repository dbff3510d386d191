import ByteScript.Proofs.Literal.Decomposition

/-!
# A body never ends within an escape

The grammar pairs each backslash with the character after it. The reader of escapes pairs them in its
own way, since an escape may take several characters; but one that has a value takes no backslash
besides its own, so behind it the grammar and the reader agree again. Thus the reader does not come to
a backslash with nothing after it: where the two disagree it has failed before.

* `not_mem_of_isRead`: the characters of an escape with a value;
* `exists_units_drop`: what is left of a body behind such characters;
* `eq_lone_of_complaint`, `find?_ne_lone`: the part that an error names;
* **`unquote_ne_lone`**: the error that no literal has.
-/

namespace ByteScript

/-! ## Escapes with a value -/

theorem escapeOf_ne_lone (c : Char) (s : Text) : escapeOf c s ≠ .lone := by
  unfold escapeOf
  split
  · nofun
  · split <;> nofun

theorem backslash_not_mem {digits : Text} (h : IsNumeral 16 (withoutPlus digits)) :
    '\\' ∉ digits := by
  have hdigits : '\\' ∉ withoutPlus digits := fun hmem => absurd (h.2 _ hmem) (by decide)
  unfold withoutPlus at hdigits
  split at hdigits
  · rw [List.mem_cons]
    exact not_or.mpr ⟨by decide, hdigits⟩
  · exact hdigits

/-- **An escape with a value takes no backslash** after its first two characters. -/
theorem not_mem_of_isRead {c : Char} {s : Text} (h : (escapeOf c s).IsRead) :
    '\\' ∉ s.take ((escapeOf c s).text.length - 2) := by
  unfold escapeOf at h ⊢
  split at h
  · next n hhex =>
    have hlength : n = (s.take n).length := Option.some.inj (hhex.symm.trans h.1)
    have htaken : (BodyPart.hex c (s.take n)).text.length - 2 = n := hlength.symm
    rw [htaken]
    exact backslash_not_mem h.2.1
  · split
    · have hprefix := (List.takeWhile_prefix isOctalDigit).trans (List.take_prefix 2 s)
      have htaken := (List.prefix_iff_eq_take.mp hprefix).symm
      change '\\' ∉ s.take ((s.take 2).takeWhile isOctalDigit).length
      rw [htaken]
      exact fun hmem => absurd (List.all_eq_true.mp List.all_takeWhile _ hmem) (by decide)
    · exact List.not_mem_nil

/-! ## What is left of a body -/

/-- **Behind characters without a backslash** a body of units goes on with units. -/
theorem exists_units_drop {us : List Text} (hus : ∀ u ∈ us, IsBodyUnit u) {n : Nat}
    (hn : '\\' ∉ us.flatten.take n) :
    ∃ vs : List Text, (∀ v ∈ vs, IsBodyUnit v) ∧ us.flatten.drop n = vs.flatten := by
  induction us generalizing n with
  | nil => exact ⟨[], hus, List.drop_nil⟩
  | cons u us ih =>
    cases n with
    | zero => exact ⟨u :: us, hus, rfl⟩
    | succ n =>
      have hrest := fun v hv => hus v (List.mem_cons_of_mem u hv)
      cases hus u List.mem_cons_self with
      | char hc => exact ih hrest fun hmem => hn (List.mem_cons_of_mem _ hmem)
      | escape c => exact absurd List.mem_cons_self hn

/-! ## The part that an error names -/

/-- Only a part without a value that is a backslash alone is named as one. -/
theorem eq_lone_of_complaint {p : BodyPart} (hread : ¬ p.IsRead) (h : p.complaint = ['\\']) :
    p = .lone := by
  cases p with
  | lone => rfl
  | hex letter digits =>
    by_cases hsize : hexEscapeLength? letter = some digits.utf8Size
    · obtain rfl : digits = ['\\'] := (if_pos hsize).symm.trans h
      have hone : Text.utf8Size ['\\'] = 1 := by decide
      have hmem := mem_of_hexEscapeLength? (hone ▸ hsize)
      simp at hmem
    · cases (if_neg hsize).symm.trans h
  | _ => exact absurd trivial hread

/-- **The first part without a value is no backslash alone**, where the body consists of units. -/
theorem find?_ne_lone {us : List Text} (hus : ∀ u ∈ us, IsBodyUnit u) :
    (partsOf us.flatten).find? (fun p => ¬ p.IsRead) ≠ some .lone := by
  -- an escape may take several units, so the induction is on the length of what is left
  induction hlen : us.flatten.length using Nat.strongRecOn generalizing us with
  | ind m ih => ?_
  cases us with
  | nil =>
    rw [List.flatten_nil, partsOf, List.find?_nil]
    exact (Option.some_ne_none _).symm
  | cons u us =>
    have hrest := fun v hv => hus v (List.mem_cons_of_mem u hv)
    cases hus u List.mem_cons_self with
    | @char c hc =>
      change (partsOf (c :: us.flatten)).find? _ ≠ _
      rw [partsOf.eq_4 _ _ (fun h _ => absurd h hc) (fun _ _ h => absurd h hc),
        List.find?_cons_of_neg (by simp [BodyPart.IsRead])]
      refine ih us.flatten.length ?_ hrest rfl
      simp [← hlen]
    | escape c =>
      change (partsOf ('\\' :: c :: us.flatten)).find? _ ≠ _
      rw [partsOf]
      by_cases hread : (escapeOf c us.flatten).IsRead
      · obtain ⟨vs, hvs, hdrop⟩ := exists_units_drop hrest (not_mem_of_isRead hread)
        rw [List.find?_cons_of_neg (by simpa using hread), hdrop]
        refine ih vs.flatten.length ?_ hvs rfl
        rw [← hdrop, ← hlen, List.length_drop, List.flatten_cons, List.length_append]
        exact Nat.lt_of_le_of_lt (Nat.sub_le _ _) (Nat.lt_add_of_pos_left (Nat.succ_pos 1))
      · rw [List.find?_cons_of_pos (by simpa using hread)]
        exact fun h => escapeOf_ne_lone c _ (Option.some.inj h)

/-- **No literal has an error that names a backslash alone.** -/
theorem unquote_ne_lone (s : Text) : unquote s ≠ .error (.badEscape ['\\']) := by
  unfold unquote
  split
  · nofun
  · next l hl =>
    obtain ⟨us, hspells⟩ := Literal.exists_spells hl
    unfold Literal.value
    split
    · nofun
    · split
      · nofun
      · rw [hspells.body, expand_eq]
        split
        · nofun
        · next p hp =>
          intro h
          have hcomplaint : p.complaint = ['\\'] :=
            LiteralError.badEscape.inj (Except.error.inj h)
          have hunread : ¬ p.IsRead := by simpa using List.find?_some hp
          exact find?_ne_lone hspells.isUnit (eq_lone_of_complaint hunread hcomplaint ▸ hp)

/-- A backslash that the grammar pairs with the mark after it stands where a digit should. -/
example : unquote "'\\x1\\''".toList = .error (.badEscape "1\\".toList) := by decide +kernel

end ByteScript
