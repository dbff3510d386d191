import ByteScript.Proofs.Script.Concatenation

/-!
# Tokens on their own

A token cut out of a script is a token of the same kind on its own, and so it is in front of a line
feed, unless it is a string in triple marks that is not closed. Every pattern but that of strings
also refuses each start of a text that it refuses.

* `length_takeWhile_take`, `nameLength_take` and others: runs in a start of a text;
* `Pattern.Settled`, `Pattern.Settled.after`, `settled_of_assigned`, **`settled_of_mem`**: patterns
  that match what they take and refuse the starts of what they refuse;
* `shortBody_take`, `longBody_take`, `quoted_take`: strings;
* **`next_take`**, `isLexeme_of_next`: a token on its own and in front of a line feed.
-/

namespace ByteScript

/-! ## Runs -/

theorem length_takeWhile_take {α : Type} (p : α → Bool) (s : List α) (n : Nat) :
    ((s.take n).takeWhile p).length = min (s.takeWhile p).length n := by
  induction s generalizing n with
  | nil => simp
  | cons c s ih =>
    cases n with
    | zero => simp
    | succ n => cases h : p c <;> simp [h, ih]

theorem digitsLength_take (s : Text) (n : Nat) :
    digitsLength (s.take n) = min (digitsLength s) n := length_takeWhile_take Char.isDigit s n

theorem nameLength_take (s : Text) (n : Nat) :
    nameLength (s.take n) = min (nameLength s) n := by
  cases s with
  | nil => simp [nameLength]
  | cons c s =>
    cases n with
    | zero => simp [nameLength]
    | succ n =>
      rw [List.take_succ_cons, nameLength, nameLength, length_takeWhile_take]
      split <;> omega

theorem signLength_take (s : Text) (n : Nat) :
    signLength (s.take n) = min (signLength s) n := by
  cases s with
  | nil => simp [signLength]
  | cons c s =>
    cases n with
    | zero => simp [signLength]
    | succ n =>
      rw [List.take_succ_cons]
      unfold signLength
      split <;> split <;> simp_all

/-! ## Patterns -/

/-- The pattern matches what it takes on its own, and refuses the starts of a text that it refuses. -/
structure Pattern.Settled (p : Pattern) : Prop where
  take : ∀ {s n}, p s = some n → p (s.take n) = some n
  refuse : ∀ {s}, p s = none → ∀ n, p (s.take n) = none

theorem settled_many (p : Char → Bool) : (Pattern.many p).Settled where
  take h := by
    obtain rfl := Option.some.inj h
    simp [Pattern.many, length_takeWhile_take]
  refuse h := by cases h

theorem many1_eq_none_iff {p : Char → Bool} {s : Text} :
    Pattern.many1 p s = none ↔ (s.takeWhile p).length = 0 := by
  simp [Pattern.many1]

theorem many1_eq_some_iff {p : Char → Bool} {s : Text} {n : Nat} :
    Pattern.many1 p s = some n ↔ n ≠ 0 ∧ (s.takeWhile p).length = n := by
  rw [Pattern.many1]
  split
  · rename_i h
    simp [h]
    omega
  · rename_i h
    simp only [Option.some.injEq]
    exact ⟨fun hn => ⟨hn ▸ h, hn⟩, And.right⟩

theorem settled_many1 (p : Char → Bool) : (Pattern.many1 p).Settled where
  take h := by
    obtain ⟨hne, hlen⟩ := many1_eq_some_iff.mp h
    exact many1_eq_some_iff.mpr ⟨hne, by rw [length_takeWhile_take, hlen, Nat.min_self]⟩
  refuse h n := by
    rw [many1_eq_none_iff] at h ⊢
    rw [length_takeWhile_take, h, Nat.zero_min]

/-- A pattern that is another one after a character. -/
theorem Pattern.Settled.after {p q : Pattern} (hq : q.Settled) (m : Char) (hnil : p [] = none)
    (hother : ∀ c s, c ≠ m → p (c :: s) = none)
    (h : ∀ s, p (m :: s) = (q s).map (1 + ·)) : p.Settled := by
  constructor
  · intro s n hs
    cases s with
    | nil => simp [hnil] at hs
    | cons c s =>
      by_cases hc : c = m
      · rw [hc, h] at hs
        obtain ⟨k, hk, rfl⟩ := Option.map_eq_some_iff.mp hs
        rw [hc, Nat.add_comm, List.take_succ_cons, h, hq.take hk, Nat.add_comm]
        rfl
      · simp [hother c s hc] at hs
  · intro s hs n
    cases s with
    | nil => simpa using hs
    | cons c s =>
      cases n with
      | zero => simpa using hnil
      | succ n =>
        by_cases hc : c = m
        · rw [hc, h, Option.map_eq_none_iff] at hs
          rw [hc, List.take_succ_cons, h, hq.refuse hs]
          rfl
        · exact hother c _ hc

/-- A name, an equals sign and what another pattern takes. -/
def Pattern.assigned (q : Pattern) : Pattern := fun s =>
  match s.drop (nameLength s) with
  | '=' :: r => if nameLength s = 0 then none else (q r).map (nameLength s + 1 + ·)
  | _ => none

theorem settled_assigned {q : Pattern} (hq : q.Settled) : q.assigned.Settled where
  take := by
    intro s n h
    unfold Pattern.assigned at h
    split at h
    · rename_i r hr
      split at h
      · cases h
      · rename_i hname
        obtain ⟨k, hk, rfl⟩ := Option.map_eq_some_iff.mp h
        have hdrop : (s.take (nameLength s + 1 + k)).drop (nameLength s) = '=' :: r.take k := by
          rw [List.drop_take, hr, Nat.add_assoc, Nat.add_sub_cancel_left, Nat.add_comm,
            List.take_succ_cons]
        have hlen : nameLength (s.take (nameLength s + 1 + k)) = nameLength s := by
          rw [nameLength_take]
          omega
        simp only [Pattern.assigned, hlen, hdrop, if_neg hname, hq.take hk, Option.map_some]
    · cases h
  refuse := by
    intro s h n
    simp only [Pattern.assigned, nameLength_take, List.drop_take]
    rcases Nat.lt_or_ge (nameLength s) n with hlt | hle
    · obtain ⟨k, rfl⟩ := Nat.exists_eq_add_of_lt hlt
      rw [Nat.min_eq_left (Nat.le_of_lt hlt), Nat.add_assoc, Nat.add_sub_cancel_left]
      unfold Pattern.assigned at h
      split at h
      · rename_i r hr
        rw [hr, List.take_succ_cons]
        split at h
        · rename_i hname
          exact if_pos hname
        · rename_i hname
          rw [Option.map_eq_none_iff] at h
          simp [hname, hq.refuse h]
      · rename_i hr
        cases hs : s.drop (nameLength s) with
        | nil => rfl
        | cons d r =>
          rw [List.take_succ_cons]
          split
          · rename_i he
            obtain ⟨rfl, -⟩ := List.cons.inj he
            exact absurd hs (hr r)
          · rfl
    · rw [Nat.min_eq_right hle, Nat.sub_self, List.take_zero]

/-- A pattern that is a character, a name, an equals sign and what another pattern takes. -/
theorem settled_of_assigned {p q : Pattern} (hq : q.Settled) (m : Char) (hnil : p [] = none)
    (hother : ∀ c s, c ≠ m → p (c :: s) = none)
    (hassign : ∀ s r, s.drop (nameLength s) = '=' :: r → p (m :: s) =
      if nameLength s = 0 then none else (q r).map (nameLength s + 2 + ·))
    (hnone : ∀ s, (∀ r, s.drop (nameLength s) ≠ '=' :: r) → p (m :: s) = none) : p.Settled := by
  refine (settled_assigned hq).after m hnil hother fun s => ?_
  by_cases h : ∃ r, s.drop (nameLength s) = '=' :: r
  · obtain ⟨r, hr⟩ := h
    rw [hassign s r hr]
    simp only [Pattern.assigned, hr]
    split
    · rfl
    · rw [Option.map_map]
      refine congrArg (Option.map · (q r)) (funext fun n => ?_)
      simp only [Function.comp_apply]
      omega
  · rw [not_exists] at h
    have hassigned : q.assigned s = none := by
      unfold Pattern.assigned
      split
      · rename_i r hr
        exact absurd hr (h r)
      · rfl
    rw [hnone s h, hassigned]
    rfl

theorem settled_definition : Pattern.definition.Settled := by
  refine settled_of_assigned (settled_many (· != '\n')) '$' rfl
    (fun c s hc => definition_eq_none (beq_eq_false_iff_ne.mpr hc)) (fun s r hr => ?_) fun s hs => ?_
  · simp only [Pattern.definition, hr]
    rfl
  · rw [Pattern.definition]
    split
    · rename_i r hr
      exact absurd hr (hs r)
    · rfl

theorem settled_sizeDefinition : Pattern.sizeDefinition.Settled := by
  refine settled_of_assigned (settled_many1 Char.isDigit) '@' rfl
    (fun c s hc => sizeDefinition_eq_none (beq_eq_false_iff_ne.mpr hc)) (fun s r hr => ?_)
    fun s hs => ?_
  · simp only [Pattern.sizeDefinition, hr, Pattern.many1, digitsLength]
    by_cases hname : nameLength s = 0
    · simp [hname]
    · simp only [hname, false_or, if_false]
      split <;> rfl
  · rw [Pattern.sizeDefinition]
    split
    · rename_i r hr
      exact absurd hr (hs r)
    · rfl

theorem settled_pad : Pattern.pad.Settled where
  take := by
    intro s n h
    unfold Pattern.pad at h
    split at h
    · rename_i s
      dsimp only at h
      split at h
      · rename_i hlt
        obtain rfl := Option.some.inj h
        rw [List.take_succ_cons]
        simp only [Pattern.pad, length_takeWhile_take, List.length_take]
        rw [if_pos (by omega)]
        simp
      · cases h
    · cases h
  refuse := by
    intro s h n
    cases hn : Pattern.pad (s.take n) with
    | none => rfl
    | some m =>
      have := pad_append hn (s.drop n)
      rw [List.take_append_drop, h] at this
      cases this

theorem settled_float : Pattern.float.Settled where
  take := by
    intro s n h
    unfold Pattern.float at h
    dsimp only at h
    split at h
    · rename_i r hr
      split at h
      · cases h
      · rename_i hdigits
        obtain rfl := Option.some.inj h
        generalize hw : digitsLength (s.drop (signLength s)) = w at hr hdigits ⊢
        generalize hf : digitsLength r = f at hdigits ⊢
        have hsign : signLength (s.take (signLength s + w + 1 + f)) = signLength s := by
          rw [signLength_take]
          omega
        have hwhole : digitsLength ((s.take (signLength s + w + 1 + f)).drop (signLength s)) = w := by
          rw [List.drop_take, digitsLength_take, hw]
          omega
        have hrest : (s.take (signLength s + w + 1 + f)).drop (signLength s + w) =
            '.' :: r.take f := by
          rw [List.drop_take, hr, Nat.add_assoc, Nat.add_sub_cancel_left, Nat.add_comm,
            List.take_succ_cons]
        have hplaces : digitsLength (r.take f) = f := by
          rw [digitsLength_take, hf, Nat.min_self]
        simp only [Pattern.float, hsign, hwhole, hrest, hplaces, if_neg hdigits]
    · cases h
  refuse := by
    intro s h n
    by_cases hlt : signLength s + digitsLength (s.drop (signLength s)) < n
    · -- the part goes beyond the digits, so it has the point exactly if the text has it
      obtain ⟨k, hk⟩ := Nat.exists_eq_add_of_lt hlt
      have hsign : signLength (s.take n) = signLength s := by
        rw [signLength_take]
        omega
      have hwhole : digitsLength ((s.take n).drop (signLength s)) =
          digitsLength (s.drop (signLength s)) := by
        rw [List.drop_take, digitsLength_take]
        omega
      unfold Pattern.float at h ⊢
      simp only [hsign, hwhole]
      rw [List.drop_take]
      dsimp only at h
      generalize signLength s + digitsLength (s.drop (signLength s)) = m at h hk
      rw [show n - m = k + 1 by omega]
      split at h
      · rename_i r hr
        rw [hr, List.take_succ_cons]
        split at h
        · rename_i hzero
          simp only [digitsLength_take]
          rw [if_pos ⟨hzero.1, by omega⟩]
        · cases h
      · rename_i hr
        split
        · rename_i r heq
          cases hs : s.drop m with
          | nil => simp [hs] at heq
          | cons d t =>
            rw [hs, List.take_succ_cons] at heq
            exact absurd (hs.trans (congrArg (· :: t) (List.cons.inj heq).1)) (hr t)
        · rfl
    · refine float_eq_none _ ?_
      rw [List.drop_eq_nil_of_le]
      · exact (Option.some_ne_none '.').symm
      · have hlen := List.length_take_le n s
        rw [signLength_take, List.drop_take, digitsLength_take]
        rcases Nat.le_total n (signLength s) with hle | hle
        · rw [Nat.min_eq_right hle]
          omega
        · rw [Nat.min_eq_left hle]
          omega

theorem settled_integer : Pattern.integer.Settled where
  take := by
    intro s n h
    simp only [Pattern.integer] at h
    split at h
    · cases h
    · rename_i hne
      obtain rfl := Option.some.inj h
      simp only [Pattern.integer, signLength_take, List.drop_take, digitsLength_take]
      rw [if_neg (by omega)]
      simp
  refuse := by
    intro s h n
    simp only [Pattern.integer] at h ⊢
    split at h
    · rename_i hzero
      simp only [signLength_take, List.drop_take, digitsLength_take]
      rw [if_pos (by omega)]
    · cases h

theorem settled_hex : Pattern.hex.Settled := by
  refine (settled_many1 isHexDigit).after '#' rfl
    (fun c s hc => hex_eq_none (beq_eq_false_iff_ne.mpr hc)) fun s => ?_
  simp only [Pattern.hex, Pattern.many1]
  split <;> rfl

theorem settled_binary : Pattern.binary.Settled where
  take := by
    intro s n h
    cases s with
    | nil => cases h
    | cons c s =>
      rw [Pattern.binary] at h
      split at h
      · rename_i hc
        obtain rfl := Option.some.inj h
        rw [Nat.add_comm, List.take_succ_cons, Pattern.binary, if_pos hc, length_takeWhile_take,
          Nat.min_self, Nat.add_comm]
      · cases h
  refuse := by
    intro s h n
    cases s with
    | nil => simpa using h
    | cons c s =>
      cases n with
      | zero => rfl
      | succ n =>
        rw [Pattern.binary] at h
        split at h
        · cases h
        · rename_i hc
          exact if_neg hc

theorem reference_of_ne {c : Char} (h : c ≠ '$') (s : Text) : Pattern.reference (c :: s) =
    if nameLength (c :: s) = 0 then none else some (nameLength (c :: s)) := by
  unfold Pattern.reference
  split
  · rename_i he
    exact absurd (List.cons.inj he).1 h
  · rfl

theorem settled_reference : Pattern.reference.Settled where
  take := by
    intro s n h
    cases s with
    | nil => cases h
    | cons c s =>
      by_cases hc : c = '$'
      · subst hc
        rw [Pattern.reference] at h
        split at h
        · cases h
        · rename_i hname
          obtain rfl := Option.some.inj h
          rw [Nat.add_comm, List.take_succ_cons, Pattern.reference, nameLength_take, Nat.min_self,
            if_neg hname, Nat.add_comm]
      · rw [reference_of_ne hc] at h
        split at h
        · cases h
        · rename_i hname
          obtain rfl := Option.some.inj h
          obtain ⟨n, hn⟩ := Nat.exists_eq_succ_of_ne_zero hname
          have hlen := nameLength_take (c :: s) (nameLength (c :: s))
          rw [Nat.min_self, hn, List.take_succ_cons] at hlen
          rw [hn, List.take_succ_cons, reference_of_ne hc, hlen, if_neg (Nat.succ_ne_zero n)]
  refuse := by
    intro s h n
    cases s with
    | nil => simpa using h
    | cons c s =>
      cases n with
      | zero => rfl
      | succ n =>
        by_cases hc : c = '$'
        · subst hc
          rw [Pattern.reference] at h
          rw [List.take_succ_cons, Pattern.reference, nameLength_take]
          split at h
          · rename_i hzero
            rw [hzero, Nat.zero_min, if_pos rfl]
          · cases h
        · rw [reference_of_ne hc] at h
          have hlen := nameLength_take (c :: s) (n + 1)
          rw [List.take_succ_cons] at hlen ⊢
          rw [reference_of_ne hc, hlen]
          split at h
          · rename_i hzero
            rw [hzero, Nat.zero_min, if_pos rfl]
          · cases h

/-! ## Strings -/

theorem shortBody_take {mark : Char} {s : Text} {n : Nat} (h : Pattern.shortBody mark s ≤ n) :
    Pattern.shortBody mark (s.take n) = Pattern.shortBody mark s := by
  fun_induction Pattern.shortBody mark s generalizing n with
  | case1 => simp [Pattern.shortBody]
  | case2 => cases n <;> simp [Pattern.shortBody]
  | case3 s => rcases n with _ | _ | n <;> simp [Pattern.shortBody]
  | case4 c s hc ih =>
    obtain ⟨n, rfl⟩ := Nat.exists_eq_add_of_le' (Nat.le_of_add_right_le h)
    rw [List.take_succ_cons, List.take_succ_cons, Pattern.shortBody, if_neg hc, ih (by omega)]
  | case5 c s h₁ h₂ hstop =>
    cases n with
    | zero => simp [Pattern.shortBody]
    | succ n => rw [List.take_succ_cons, shortBody_cons (ne_backslash h₁ h₂), if_pos hstop]
  | case6 c s h₁ h₂ hgo ih =>
    obtain ⟨n, rfl⟩ := Nat.exists_eq_add_of_le' (Nat.le_of_add_right_le h)
    rw [List.take_succ_cons, shortBody_cons (ne_backslash h₁ h₂), if_neg hgo, ih (by omega)]

/-- The marks that come before a body belong to it if anything does. -/
theorem longBody_eq_zero_or_lt (mark : Char) (pending : Nat) (s : Text) :
    Pattern.longBody mark pending s = 0 ∨ pending < Pattern.longBody mark pending s := by
  fun_induction Pattern.longBody mark pending s <;> omega

theorem longBody_take {mark : Char} {pending : Nat} {s : Text} {n : Nat}
    (h : Pattern.longBody mark pending s ≤ pending + n) :
    Pattern.longBody mark pending (s.take n) = Pattern.longBody mark pending s := by
  fun_induction Pattern.longBody mark pending s generalizing n with
  | case1 => simp [Pattern.longBody]
  | case2 => cases n <;> simp [Pattern.longBody]
  | case3 pending s => rcases n with _ | _ | n <;> simp [Pattern.longBody]
  | case4 pending c s hc ih =>
    obtain ⟨n, rfl⟩ := Nat.exists_eq_add_of_le' (show 2 ≤ n by omega)
    rw [List.take_succ_cons, List.take_succ_cons, Pattern.longBody, if_neg hc, ih (by omega)]
  | case5 s h₁ h₂ =>
    cases n with
    | zero => simp [Pattern.longBody]
    | succ n => rw [List.take_succ_cons, longBody_cons (ne_backslash h₁ h₂), if_pos rfl, if_pos rfl]
  | case6 pending s hpending h₁ h₂ ih =>
    cases n with
    | zero =>
      have hzero := (longBody_eq_zero_or_lt mark (pending + 1) s).resolve_right (by omega)
      simp [Pattern.longBody, hzero]
    | succ n =>
      rw [List.take_succ_cons, longBody_cons (ne_backslash h₁ h₂), if_pos rfl, if_neg hpending,
        ih (by omega)]
  | case7 pending c s h₁ h₂ hc ih =>
    obtain ⟨n, rfl⟩ := Nat.exists_eq_add_of_le' (show 1 ≤ n by omega)
    rw [List.take_succ_cons, longBody_cons (ne_backslash h₁ h₂), if_neg hc, ih (by omega)]

/-- A string on its own has its closing marks exactly if it has them in the text. -/
theorem isPrefixOf_drop_take {p : Text} {k : Nat} (hp : p.length = k) (hk : k ≠ 0) (s : Text)
    (n : Nat) : p.isPrefixOf ((s.take (n + if p.isPrefixOf (s.drop n) then k else 0)).drop n) =
      p.isPrefixOf (s.drop n) := by
  rw [List.drop_take, Nat.add_sub_cancel_left]
  split
  · rename_i h
    obtain ⟨r, hr⟩ := List.isPrefixOf_iff_prefix.mp h
    rw [h, ← hr, List.take_left' hp]
    exact List.isPrefixOf_iff_prefix.mpr (List.prefix_refl p)
  · rename_i h
    rw [List.take_zero, Bool.eq_false_iff.mpr h]
    cases p with
    | nil => exact absurd hp.symm hk
    | cons c p => rfl

/-- A string is a string on its own. -/
theorem quoted_take {c : Char} (hc : isQuote c = true) {s : Text} {n : Nat}
    (h : Pattern.quoted (c :: s) = some n) : Pattern.quoted ((c :: s).take n) = some n := by
  by_cases htriple : [c, c].isPrefixOf s = true
  · obtain ⟨t, rfl⟩ := List.isPrefixOf_iff_prefix.mp htriple
    change Pattern.quoted (c :: c :: c :: t) = some n at h
    have hclosed := isPrefixOf_drop_take (p := [c, c, c]) (k := 3) rfl (by decide) t
      (Pattern.longBody c 0 t)
    rw [quoted_triple hc, Nat.add_assoc] at h
    obtain rfl := Option.some.inj h
    change Pattern.quoted (List.take _ (c :: c :: c :: t)) = _
    rw [Nat.add_comm, List.take_succ_cons, List.take_succ_cons, List.take_succ_cons,
      quoted_triple hc, longBody_take (by omega), Nat.add_assoc]
    rw [hclosed, Nat.add_comm 3]
  · have hclosed := isPrefixOf_drop_take (p := [c]) (k := 1) rfl (by decide) s
      (Pattern.shortBody c s)
    rw [quoted_cons hc, if_neg htriple, Nat.add_assoc] at h
    obtain rfl := Option.some.inj h
    have hsingle : ¬ [c, c].isPrefixOf (s.take (Pattern.shortBody c s +
        if [c].isPrefixOf (s.drop (Pattern.shortBody c s)) then 1 else 0)) = true := by
      rw [List.isPrefixOf_iff_prefix] at htriple ⊢
      exact fun h => htriple (h.trans (List.take_prefix _ _))
    rw [Nat.add_comm, List.take_succ_cons, quoted_cons hc, if_neg hsingle,
      shortBody_take (by omega), Nat.add_assoc]
    rw [hclosed, Nat.add_comm 1]

/-! ## Tokens -/

theorem settled_of_mem {e : ScriptKind × Pattern} (he : e ∈ scriptTable.patterns.take 8) :
    e.2.Settled := by
  simp only [scriptTable, List.take, List.mem_cons, List.not_mem_nil, or_false] at he
  rcases he with rfl | rfl | rfl | rfl | rfl | rfl | rfl | rfl
  exacts [settled_definition, settled_sizeDefinition, settled_pad, settled_float,
    settled_integer, settled_hex, settled_binary, settled_reference]

/-- A string token starts with its mark: letters would be a name. -/
theorem isQuote_of_next {c : Char} {s : Text} {n : Nat}
    (h : scriptTable.next (c :: s) = (.string, n)) :
    isQuote c = true ∧ Pattern.quoted (c :: s) = some n := by
  obtain ⟨i, p, hi, hp, hbefore⟩ := exists_of_next h (by decide)
  have hindex : ∀ i < scriptTable.patterns.length,
      (scriptTable.patterns[i]?).map Prod.fst = some .string → i = 8 := by decide
  obtain rfl := hindex i (List.getElem?_eq_some_iff.mp hi).1 (by rw [hi]; rfl)
  obtain rfl := (Prod.mk.inj (Option.some.inj hi)).2
  have hname : isNameStart c = false := Bool.eq_false_iff.mpr fun hname =>
    ne_none_of_reference hname (hbefore Pattern.reference (List.mem_iff_getElem?.mpr ⟨7, rfl⟩))
  have hquote : isQuote c = true := by
    by_contra hquote
    rw [string_eq_none (Bool.or_eq_false_iff.mpr ⟨Bool.eq_false_iff.mpr hquote, hname⟩)] at hp
    cases hp
  exact ⟨hquote, by rwa [← string_of_mark (isQuote_iff_mark.mp hquote)]⟩

/-- **A token is a token of its own.** -/
theorem next_take {s : Text} {k : ScriptKind} {n : Nat} (h : scriptTable.next s = (k, n))
    (hk : k ∉ [ScriptKind.mismatch, .blank, .comment]) : scriptTable.next (s.take n) = (k, n) := by
  obtain ⟨i, p, hi, hp, hbefore⟩ := exists_of_next h (fun h => hk (h ▸ List.mem_cons_self))
  have hpos := (fits_of_mem (List.mem_of_getElem? hi) _ _ hp).1
  rcases Nat.lt_or_ge i 8 with hlt | hge
  · have hfirst : ∀ j e, scriptTable.patterns[j]? = some e → j < 8 →
        e ∈ scriptTable.patterns.take 8 := fun j e he hj =>
      List.mem_iff_getElem?.mpr ⟨j, by rw [List.getElem?_take, if_pos hj, he]⟩
    refine next_eq i hi (fun q hq => ?_) ((settled_of_mem (hfirst i _ hi hlt)).take hp)
      (Nat.ne_of_gt hpos)
    have hnone := hbefore q hq
    obtain ⟨e, he, rfl⟩ := List.mem_map.mp hq
    exact (settled_of_mem ((List.take_sublist_take_left (Nat.le_of_lt hlt)).subset he)).refuse
      hnone n
  · have hkinds : ∀ e ∈ scriptTable.patterns.drop 8,
        e.1 ∈ [ScriptKind.mismatch, .blank, .comment] ∨ e.1 = .string := by decide
    have hmem : (k, p) ∈ scriptTable.patterns.drop 8 :=
      List.mem_iff_getElem?.mpr ⟨i - 8, by rw [List.getElem?_drop, Nat.add_sub_cancel' hge, hi]⟩
    obtain rfl : k = .string := (hkinds _ hmem).resolve_left hk
    cases s with
    | nil => cases h
    | cons c s =>
      obtain ⟨hquote, hquoted⟩ := isQuote_of_next h
      have htake := quoted_take hquote hquoted
      obtain ⟨n, rfl⟩ := Nat.exists_eq_succ_of_ne_zero (Nat.ne_of_gt hpos)
      rw [List.take_succ_cons] at htake ⊢
      refine next_of_isMarkOf (Or.inr (Or.inl ⟨hquote, rfl⟩)) rfl (p := Pattern.string) ?_
      rwa [string_of_mark (isQuote_iff_mark.mp hquote)]

/-- A token is one in front of a line feed too, unless it is a string that runs on. -/
theorem isLexeme_of_next {s : Text} {k : ScriptKind} (h : scriptTable.next s = (k, s.length))
    (hk : k ∉ [ScriptKind.mismatch, .blank, .comment])
    (hclosed : k = .string → ¬ IsUnclosed s) : IsLexeme '\n' k s := by
  have hmismatch : k ≠ .mismatch := fun h => hk (h ▸ List.mem_cons_self)
  have hne : s ≠ [] := List.ne_nil_of_length_pos (next_le h hmismatch).1
  refine ⟨hne, hk, fun r => ?_⟩
  obtain ⟨c, s, rfl⟩ := List.exists_cons_of_ne_nil hne
  have hblank : isBlank c = false := by
    rw [Bool.eq_false_iff]
    intro hblank
    rw [next_blank hblank] at h
    exact hk ((Prod.mk.inj h).1 ▸ by decide)
  exact next_append (firstLine_append_lineFeed _ r) hblank h hmismatch hclosed

end ByteScript
