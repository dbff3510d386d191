import ByteScript.Proofs.Literal.Decomposition
import ByteScript.Proofs.Script.Concatenation
import ByteScript.Proofs.Script.Execution

/-!
# String tokens and string literals

The scanner cuts strings out of a script, the grammar of literals takes them apart. Both read a body
unit by unit and both end it at its marks, and one in single marks in front of a line feed as well.
Beyond that the scanner has no unit of a backslash and a line feed, and the grammar no carriage
return of its own in single marks.

* `IsDelimited`: a text from opening to closing marks;
* `IsClosed`: what the scanner takes to be a string up to its closing marks;
* `isClosed_iff`, `ofText?_ne_none_iff`: strings and literals in terms of the units;
* **`isOneString_iff_of_mark`**: where they agree, and what a literal compiles to.
-/

namespace ByteScript

/-! ## Bodies -/

/-- A backslash in front of a line feed. -/
def escapedLineFeed : Text := ['\\', '\n']

/-- The body ends here for scanner and grammar alike: at its marks and, in single marks, in front of
a line feed. -/
def Delimiter.bounds (d : Delimiter) (s : Text) : Bool :=
  d.text.isPrefixOf s || (!d.triple && s.head? == some '\n')

theorem escapedLineFeed_mem_cons {c : Char} (h : c ≠ '\\') (s : Text) :
    escapedLineFeed ∈ units (c :: s) ↔ escapedLineFeed ∈ units s := by
  rw [units_cons h, List.mem_cons, escapedLineFeed]
  simp

theorem escapedLineFeed_mem_backslash {c : Char} (h : c ≠ '\n') (s : Text) :
    escapedLineFeed ∈ units ('\\' :: c :: s) ↔ escapedLineFeed ∈ units s := by
  rw [units, List.mem_cons, escapedLineFeed]
  simp [Ne.symm h]

section Single

variable {mark : Char} (hmark : mark ≠ '\\')

theorem text_isPrefixOf_single (c : Char) (s : Text) :
    (Delimiter.mk mark false).text.isPrefixOf (c :: s) = true ↔ c = mark := by
  change (mark == c && List.isPrefixOf [] s) = true ↔ c = mark
  rw [List.isPrefixOf_nil_left, Bool.and_true, beq_iff_eq, eq_comm]

theorem bounds_single (c : Char) (s : Text) :
    (Delimiter.mk mark false).bounds (c :: s) = true ↔ c = mark ∨ c = '\n' := by
  rw [Delimiter.bounds, Bool.or_eq_true, text_isPrefixOf_single, Bool.not_false, Bool.true_and,
    List.head?_cons, beq_iff_eq, Option.some.injEq]

theorem endsAt_single (c : Char) (s : Text) :
    (Delimiter.mk mark false).endsAt (c :: s) = true ↔ c = mark ∨ c = '\n' ∨ c = '\r' := by
  rw [Delimiter.endsAt, Bool.or_eq_true, text_isPrefixOf_single, Bool.not_false, Bool.true_and,
    List.head?_cons, Option.any_some, Bool.or_eq_true, beq_iff_eq, beq_iff_eq]

include hmark

/-- A backslash in single marks starts a unit. -/
theorem bounds_backslash (s : Text) : (Delimiter.mk mark false).bounds ('\\' :: s) = false := by
  rw [Bool.eq_false_iff, Ne, bounds_single, not_or]
  exact ⟨Ne.symm hmark, by decide⟩

theorem endsAt_backslash (s : Text) : (Delimiter.mk mark false).endsAt ('\\' :: s) = false := by
  rw [Bool.eq_false_iff, Ne, endsAt_single, not_or]
  exact ⟨Ne.symm hmark, by decide⟩

/-- A body in single marks ends at its mark for the scanner too, unless there is a backslash in
front of a line feed, where the scanner stops. -/
theorem shortBody_cases {s : Text}
    (h : (bodyUntil (Delimiter.mk mark false).bounds s).2 = [mark]) :
    escapedLineFeed ∉ units s ∧ s.drop (Pattern.shortBody mark s) = [mark] ∨
      escapedLineFeed ∈ units s ∧
        ∃ b, s.drop (Pattern.shortBody mark s) = '\\' :: '\n' :: b := by
  fun_induction Pattern.shortBody mark s with
  | case1 => cases h
  | case2 =>
    rw [bodyUntil_lone (bounds_backslash hmark _)] at h
    cases h
  | case3 s => exact Or.inr ⟨List.mem_cons_self, s, rfl⟩
  | case4 c s hc ih =>
    rw [bodyUntil_unit (bounds_backslash hmark _)] at h
    rw [escapedLineFeed_mem_backslash hc, Nat.add_comm, List.drop_succ_cons, List.drop_succ_cons]
    exact ih h
  | case5 c s h₁ h₂ hstop =>
    rw [bodyUntil_cons (ne_backslash h₁ h₂), if_pos ((bounds_single c s).mpr hstop)] at h
    obtain ⟨rfl, rfl⟩ := List.cons.inj h
    refine Or.inl ⟨?_, rfl⟩
    rw [escapedLineFeed_mem_cons hmark]
    exact List.not_mem_nil
  | case6 c s h₁ h₂ hgo ih =>
    have hc := ne_backslash h₁ h₂
    rw [bodyUntil_cons hc, if_neg (mt (bounds_single c s).mp hgo)] at h
    rw [escapedLineFeed_mem_cons hc, Nat.add_comm, List.drop_succ_cons]
    exact ih h

theorem bounds_of_shortBody {s : Text} (h : s.drop (Pattern.shortBody mark s) = [mark]) :
    (bodyUntil (Delimiter.mk mark false).bounds s).2 = [mark] := by
  fun_induction Pattern.shortBody mark s with
  | case1 => cases h
  | case2 => exact absurd (List.cons.inj h).1.symm hmark
  | case3 s => exact absurd (List.cons.inj h).1.symm hmark
  | case4 c s hc ih =>
    rw [Nat.add_comm, List.drop_succ_cons, List.drop_succ_cons] at h
    rw [bodyUntil_unit (bounds_backslash hmark _)]
    exact ih h
  | case5 c s h₁ h₂ hstop =>
    rw [bodyUntil_cons (ne_backslash h₁ h₂), if_pos ((bounds_single c s).mpr hstop)]
    exact h
  | case6 c s h₁ h₂ hgo ih =>
    rw [Nat.add_comm, List.drop_succ_cons] at h
    rw [bodyUntil_cons (ne_backslash h₁ h₂), if_neg (mt (bounds_single c s).mp hgo)]
    exact ih h

/-- The grammar closes a body in single marks exactly if no carriage return of its own is in it. -/
theorem endsAt_single_iff (hreturn : mark ≠ '\r') {s : Text} :
    (bodyUntil (Delimiter.mk mark false).endsAt s).2 = [mark] ↔
      (bodyUntil (Delimiter.mk mark false).bounds s).2 = [mark] ∧ ['\r'] ∉ units s := by
  fun_induction bodyUntil (Delimiter.mk mark false).bounds s with
  | case1 => exact iff_of_false (List.cons_ne_nil _ _).symm fun h => (List.cons_ne_nil _ _).symm h.1
  | case2 c s hstop => exact absurd hstop (by rw [bounds_backslash hmark]; exact Bool.false_ne_true)
  | case3 c s hgo ih =>
    rw [bodyUntil_unit (endsAt_backslash hmark _), ih, units, List.mem_cons]
    simp
  | case4 c s hslash hstop =>
    have hc : c ≠ '\\' := by
      rintro rfl
      rw [bounds_backslash hmark] at hstop
      cases hstop
    have hends : (Delimiter.mk mark false).endsAt (c :: s) = true := by
      rw [endsAt_single]
      exact ((bounds_single c s).mp hstop).imp_right Or.inl
    rw [bodyUntil_cons hc, if_pos hends]
    refine ⟨fun h => ⟨h, ?_⟩, And.left⟩
    obtain ⟨rfl, rfl⟩ := List.cons.inj h
    rw [units_cons hmark, units, List.mem_singleton, List.cons.injEq]
    exact fun h => hreturn h.1.symm
  | case5 c s hslash hgo ih =>
    by_cases hc : c = '\\'
    · -- a backslash with nothing after it
      subst hc
      cases s with
      | cons d t => exact (hslash d t rfl rfl).elim
      | nil =>
        rw [bodyUntil_lone (endsAt_backslash hmark _)]
        exact iff_of_false (List.cons_ne_nil _ _).symm fun h => (List.cons_ne_nil _ _).symm h.1
    · rw [bounds_single, not_or] at hgo
      rw [bodyUntil_cons hc, units_cons hc, List.mem_cons, not_or]
      by_cases hr : c = '\r'
      · subst hr
        rw [if_pos ((endsAt_single _ s).mpr (Or.inr (Or.inr rfl)))]
        exact iff_of_false (fun h => hreturn (List.cons.inj h).1.symm) fun h => h.2.1 rfl
      · have hends : ¬ (Delimiter.mk mark false).endsAt (c :: s) = true := by
          rw [endsAt_single]
          exact fun h => h.elim hgo.1 fun h => h.elim hgo.2 hr
        rw [if_neg hends, ih]
        simp [Ne.symm hr]

end Single

section Triple

variable {mark : Char} (hmark : mark ≠ '\\') {pending : Nat}

theorem not_mem_of_replicate_append_eq {c : Char} (hc : c ≠ mark) {s : Text} :
    List.replicate pending mark ++ c :: s ≠ [mark, mark, mark] := by
  intro h
  have hmem : c ∈ [mark, mark, mark] := h ▸ List.mem_append_right _ List.mem_cons_self
  simp [hc] at hmem

theorem endsAt_triple_cons {c : Char} (hc : c ≠ mark) (s : Text) :
    (Delimiter.mk mark true).endsAt (c :: s) = false := by
  rw [endsAt_triple]
  exact not_isPrefixOf_three (Nat.zero_le 2) (by simpa using hc)

include hmark

theorem bodyUntil_marks (s : Text) :
    bodyUntil (Delimiter.mk mark true).endsAt (List.replicate 2 mark ++ mark :: s) =
      ([], mark :: mark :: mark :: s) := by
  have hends : (Delimiter.mk mark true).endsAt (mark :: mark :: mark :: s) = true := by
    rw [endsAt_triple]
    simp [List.isPrefixOf]
  change bodyUntil _ (mark :: mark :: mark :: s) = _
  rw [bodyUntil_cons hmark, if_pos hends]

/-- A body in triple marks ends at its marks for the scanner too, unless there is a backslash in
front of a line feed, where the scanner stops; it leaves out the marks that stand before. -/
theorem longBody_cases (hp : pending ≤ 2) {s : Text}
    (h : (bodyUntil (Delimiter.mk mark true).endsAt (List.replicate pending mark ++ s)).2 =
      [mark, mark, mark]) :
    escapedLineFeed ∉ units s ∧
        (List.replicate pending mark ++ s).drop (Pattern.longBody mark pending s) =
          [mark, mark, mark] ∨
      escapedLineFeed ∈ units s ∧ ∃ k b, k ≤ 2 ∧
        (List.replicate pending mark ++ s).drop (Pattern.longBody mark pending s) =
          List.replicate k mark ++ '\\' :: '\n' :: b := by
  fun_induction Pattern.longBody mark pending s with
  | case1 pending =>
    rw [bodyUntil_replicate hmark hp (by simp)] at h
    cases h
  | case2 pending =>
    rw [bodyUntil_replicate hmark hp (by simpa using hmark.symm),
      bodyUntil_lone (endsAt_triple_cons hmark.symm _)] at h
    cases h
  | case3 pending s => exact Or.inr ⟨List.mem_cons_self, pending, s, hp, rfl⟩
  | case4 pending c s hc ih =>
    rw [bodyUntil_replicate hmark hp (by simpa using hmark.symm),
      bodyUntil_unit (endsAt_triple_cons hmark.symm _)] at h
    rw [escapedLineFeed_mem_backslash hc, Nat.add_assoc, drop_replicate_append, Nat.add_comm 2,
      List.drop_succ_cons, List.drop_succ_cons]
    exact ih (Nat.zero_le _) h
  | case5 s h₁ h₂ =>
    rw [bodyUntil_marks hmark] at h
    obtain rfl : s = [] := by simpa using h
    refine Or.inl ⟨?_, rfl⟩
    rw [escapedLineFeed_mem_cons hmark]
    exact List.not_mem_nil
  | case6 pending s hpending h₁ h₂ ih =>
    rw [escapedLineFeed_mem_cons hmark]
    have := @ih (by omega)
    rw [List.replicate_succ', List.append_assoc] at this
    exact this h
  | case7 pending c s h₁ h₂ hc ih =>
    have hslash := ne_backslash h₁ h₂
    rw [bodyUntil_replicate hmark hp (by simpa using hc), bodyUntil_cons hslash,
      endsAt_triple_cons hc, if_neg Bool.false_ne_true] at h
    rw [escapedLineFeed_mem_cons hslash, Nat.add_assoc, drop_replicate_append, Nat.add_comm 1,
      List.drop_succ_cons]
    exact ih (Nat.zero_le _) h

theorem endsAt_of_longBody (hp : pending ≤ 2) {s : Text}
    (h : (List.replicate pending mark ++ s).drop (Pattern.longBody mark pending s) =
      [mark, mark, mark]) :
    (bodyUntil (Delimiter.mk mark true).endsAt (List.replicate pending mark ++ s)).2 =
      [mark, mark, mark] := by
  fun_induction Pattern.longBody mark pending s with
  | case1 pending =>
    have := congrArg List.length h
    simp at this
    omega
  | case2 pending => exact absurd h (not_mem_of_replicate_append_eq hmark.symm)
  | case3 pending s => exact absurd h (not_mem_of_replicate_append_eq hmark.symm)
  | case4 pending c s hc ih =>
    rw [Nat.add_assoc, drop_replicate_append, Nat.add_comm 2, List.drop_succ_cons,
      List.drop_succ_cons] at h
    rw [bodyUntil_replicate hmark hp (by simpa using hmark.symm),
      bodyUntil_unit (endsAt_triple_cons hmark.symm _)]
    exact ih (Nat.zero_le _) h
  | case5 s h₁ h₂ =>
    rw [bodyUntil_marks hmark]
    exact h
  | case6 pending s hpending h₁ h₂ ih =>
    have := @ih (by omega)
    rw [List.replicate_succ', List.append_assoc] at this
    exact this h
  | case7 pending c s h₁ h₂ hc ih =>
    rw [Nat.add_assoc, drop_replicate_append, Nat.add_comm 1, List.drop_succ_cons] at h
    rw [bodyUntil_replicate hmark hp (by simpa using hc), bodyUntil_cons (ne_backslash h₁ h₂),
      endsAt_triple_cons hc, if_neg Bool.false_ne_true]
    exact ih (Nat.zero_le _) h

end Triple

/-! ## A backslash outside a string -/

theorem scriptScan_backslash (s : Text) (start line : Nat) :
    scriptScan start line ('\\' :: s) = .error ⟨['\\'], start, line⟩ := by
  refine scriptScan_mismatch (next_mismatch fun q hq => ?_) start line
  obtain ⟨e, he, rfl⟩ := List.mem_map.mp hq
  have hkinds : ∀ e ∈ scriptTable.patterns, e.1.startsWith '\\' = false := by decide
  exact eq_none_of_startsWith he (hkinds e he)

/-- At most two marks in front of a backslash at the end of a line are a string of their own. -/
theorem scriptScan_marks {mark : Char} (hm : mark = '\'' ∨ mark = '"') {k : Nat} (hk : k ≤ 2)
    {b : Text} (hb : b.head?.all (· == '\n') = true) (start line : Nat) :
    scriptScan start line (List.replicate k mark ++ '\\' :: b) =
      .error ⟨['\\'], start + Text.utf8Size (List.replicate k mark),
        line + Text.newlines (List.replicate k mark)⟩ := by
  by_cases hzero : k = 0
  · subst hzero
    exact scriptScan_backslash _ _ _
  · have hne : List.replicate k mark ≠ [] := fun h =>
      hzero (by simpa using congrArg List.length h)
    have hnext : scriptTable.next (List.replicate k mark ++ '\\' :: b) =
        (.string, (List.replicate k mark).length) := by
      obtain rfl | rfl : k = 1 ∨ k = 2 := by omega
      all_goals
        rcases b with _ | ⟨c, b⟩
        · rcases hm with rfl | rfl <;> rfl
        · obtain rfl : c = '\n' := by simpa using hb
          rcases hm with rfl | rfl <;> rfl
    rw [scriptScan_token hne hnext (by decide), scriptScan_backslash]
    rfl

/-! ## Delimiters -/

/-- The length of a body in these marks, as the scanner reads it. -/
def Delimiter.scanned (d : Delimiter) (s : Text) : Nat :=
  if d.triple then Pattern.longBody d.mark 0 s else Pattern.shortBody d.mark s

/-- The text is a body between opening and closing marks. -/
def IsDelimited (s : Text) : Prop :=
  ∃ d, Delimiter.opening? s = some d ∧ (bodyUntil d.bounds (s.drop d.text.length)).2 = d.text

/-- The text is a body, as the scanner reads it, between opening and closing marks. -/
def IsClosed (s : Text) : Prop :=
  ∃ d, Delimiter.opening? s = some d ∧
    (s.drop d.text.length).drop (d.scanned (s.drop d.text.length)) = d.text

section Delimiters

variable {d : Delimiter}

theorem bounds_triple (mark : Char) :
    (Delimiter.mk mark true).bounds = (Delimiter.mk mark true).endsAt := by
  funext s
  rw [Delimiter.bounds, Delimiter.endsAt, Bool.not_true, Bool.false_and, Bool.false_and]

/-- A delimited body is closed for the scanner, unless there is a backslash in front of a line feed,
where the scanner stops. -/
theorem scanned_cases (hmark : d.mark ≠ '\\') {s : Text} (h : (bodyUntil d.bounds s).2 = d.text) :
    escapedLineFeed ∉ units s ∧ s.drop (d.scanned s) = d.text ∨
      escapedLineFeed ∈ units s ∧ ∃ k b, k ≤ 2 ∧ k < d.text.length ∧
        s.drop (d.scanned s) = List.replicate k d.mark ++ '\\' :: '\n' :: b := by
  obtain ⟨mark, _ | _⟩ := d
  · refine (shortBody_cases hmark h).imp_right (And.imp_right ?_)
    rintro ⟨b, hb⟩
    exact ⟨0, b, Nat.zero_le 2, Nat.zero_lt_one, hb⟩
  · rw [bounds_triple] at h
    refine (longBody_cases hmark (Nat.zero_le 2) h).imp_right (And.imp_right ?_)
    rintro ⟨k, b, hk, hb⟩
    exact ⟨k, b, hk, Nat.lt_succ_of_le hk, hb⟩

theorem bounds_of_scanned (hmark : d.mark ≠ '\\') {s : Text}
    (h : s.drop (d.scanned s) = d.text) : (bodyUntil d.bounds s).2 = d.text := by
  obtain ⟨mark, _ | _⟩ := d
  · exact bounds_of_shortBody hmark h
  · rw [bounds_triple]
    exact endsAt_of_longBody hmark (Nat.zero_le 2) h

theorem isPrefixOf_marks (hmark : d.mark ≠ '\\') {k : Nat} (hk : k < d.text.length) (s : Text) :
    d.text.isPrefixOf (List.replicate k d.mark ++ '\\' :: s) = false := by
  rw [Bool.eq_false_iff]
  intro h
  obtain ⟨r, hr⟩ := List.isPrefixOf_iff_prefix.mp h
  have hget : (d.text ++ r)[k]? = (List.replicate k d.mark ++ '\\' :: s)[k]? := by rw [hr]
  rw [List.getElem?_append_left hk, List.getElem?_append_right (by simp),
    List.length_replicate, Nat.sub_self, Delimiter.text, List.getElem?_replicate] at hget
  rw [Delimiter.text, List.length_replicate] at hk
  rw [if_pos hk] at hget
  exact hmark (Option.some.inj hget)

theorem mem_units_replicate {mark : Char} (hmark : mark ≠ '\\') {u : Text} (hu : u ≠ [mark]) (n : Nat)
    (s : Text) : u ∈ units (List.replicate n mark ++ s) ↔ u ∈ units s := by
  induction n with
  | zero => rfl
  | succ n ih =>
    rw [List.replicate_succ, List.cons_append, units_cons hmark, List.mem_cons, ih]
    exact or_iff_right hu

end Delimiters

section Opening

variable {d : Delimiter} {s : Text} (hopen : Delimiter.opening? s = some d)

include hopen

theorem isDelimited_iff :
    IsDelimited s ↔ (bodyUntil d.bounds (s.drop d.text.length)).2 = d.text := by
  constructor
  · rintro ⟨e, he, h⟩
    obtain rfl := Option.some.inj (hopen.symm.trans he)
    exact h
  · exact fun h => ⟨d, hopen, h⟩

theorem mem_units_drop {u : Text} (hu : u ≠ [d.mark]) :
    u ∈ units s ↔ u ∈ units (s.drop d.text.length) := by
  conv_lhs => rw [eq_of_opening hopen]
  exact mem_units_replicate (ne_backslash_of_opening hopen) hu _ _

/-- **The scanner's strings** are the delimited texts without a backslash in front of a line feed. -/
theorem isClosed_iff : IsClosed s ↔ IsDelimited s ∧ escapedLineFeed ∉ units s := by
  have hmark := ne_backslash_of_opening hopen
  rw [isDelimited_iff hopen, mem_units_drop hopen (by simp [escapedLineFeed])]
  constructor
  · rintro ⟨e, he, h⟩
    obtain rfl := Option.some.inj (hopen.symm.trans he)
    have hbounds := bounds_of_scanned hmark h
    refine ⟨hbounds, fun hmem => ?_⟩
    rcases scanned_cases hmark hbounds with ⟨hnot, _⟩ | ⟨_, k, b, _, _, hb⟩
    · exact hnot hmem
    · have hslash : '\\' ∈ d.text := h ▸ hb ▸ List.mem_append_right _ List.mem_cons_self
      exact hmark (List.eq_of_mem_replicate hslash).symm
  · rintro ⟨hbounds, hnot⟩
    rcases scanned_cases hmark hbounds with ⟨_, h⟩ | ⟨hmem, _⟩
    · exact ⟨d, hopen, h⟩
    · exact absurd hmem hnot

/-! ## Tokens -/

/-- The scanner cuts off the body that it reads, with its closing marks if they are there. -/
theorem next_of_opening : scriptTable.next s = (.string, d.text.length +
    d.scanned (s.drop d.text.length) +
      if d.text.isPrefixOf ((s.drop d.text.length).drop (d.scanned (s.drop d.text.length)))
      then d.text.length else 0) := by
  obtain ⟨t, rfl, hm, htriple⟩ := exists_of_opening hopen
  have hquote : isQuote d.mark = true := by rcases hm with h | h <;> rw [h] <;> rfl
  refine next_of_isMarkOf (p := Pattern.string) (Or.inr (Or.inl ⟨hquote, rfl⟩)) rfl ?_
  rw [string_of_mark hm, quoted_cons hquote, ← htriple]
  obtain ⟨mark, _ | _⟩ := d
  · rfl
  · rw [if_pos rfl, ← List.drop_drop]
    rfl

/-- A closed string is one token. -/
theorem next_of_isClosed (h : IsClosed s) : scriptTable.next s = (.string, s.length) := by
  obtain ⟨e, he, h⟩ := h
  obtain rfl := Option.some.inj (hopen.symm.trans he)
  have hself : d.text.isPrefixOf d.text = true :=
    List.isPrefixOf_iff_prefix.mpr (List.prefix_refl _)
  have hpos : 0 < d.text.length := by
    rw [Delimiter.text, List.length_replicate]
    split <;> decide
  have hlen : s.length = d.text.length + (s.drop d.text.length).length := by
    conv_lhs => rw [eq_of_opening hopen, List.length_append]
  have hrest := congrArg List.length h
  rw [List.length_drop] at hrest
  rw [next_of_opening hopen, h, if_pos hself, hlen]
  exact congrArg (Prod.mk _) (by omega)

theorem scan_of_isClosed (h : IsClosed s) {remove : List ScriptKind} (hremove : .string ∉ remove) :
    scriptTable.scan remove true s = .ok [⟨.string, s, 0, 1⟩] := by
  obtain ⟨t, rfl, _⟩ := exists_of_opening hopen
  have hnext := next_of_isClosed hopen h
  have hkept : remove.contains ScriptKind.string = false := by
    rw [List.contains_eq_mem, decide_eq_false_iff_not]
    exact hremove
  have htake : t.take ((d.mark :: t).length - 1) = t := List.take_of_length_le (Nat.le_refl _)
  have hdrop : t.drop ((d.mark :: t).length - 1) = [] := List.drop_of_length_le (Nat.le_refl _)
  rw [Table.scan, Table.scanFrom]
  simp only [hnext, htake, hdrop, hkept, Table.scanFrom]
  rfl

/-- **A delimited text with a backslash in front of a line feed** is no script: the scanner stops at
such a backslash. -/
theorem scan_of_escapedLineFeed (h : IsDelimited s) (hmem : escapedLineFeed ∈ units s) :
    ∃ a b, s = a ++ '\\' :: '\n' :: b ∧
      scriptScan 0 1 s = .error ⟨['\\'], a.utf8Size, 1 + a.newlines⟩ := by
  have hmark := ne_backslash_of_opening hopen
  rw [isDelimited_iff hopen] at h
  rw [mem_units_drop hopen (by simp [escapedLineFeed])] at hmem
  obtain ⟨hnot, _⟩ | ⟨_, k, b, hk, hlt, hb⟩ := scanned_cases hmark h
  · exact absurd hmem hnot
  have hnext := next_of_opening hopen
  rw [hb, isPrefixOf_marks hmark hlt, if_neg Bool.false_ne_true, Nat.add_zero] at hnext
  generalize hn : d.scanned (s.drop d.text.length) = n at hb hnext
  obtain ⟨body, hbody, hlen⟩ : ∃ body, s.drop d.text.length =
      body ++ (List.replicate k d.mark ++ '\\' :: '\n' :: b) ∧ body.length = n := by
    refine ⟨_, (hb ▸ List.take_append_drop n _).symm, List.length_take_of_le ?_⟩
    have := congrArg List.length hb
    rw [List.length_drop, List.length_append, List.length_cons] at this
    omega
  have hs : s = d.text ++ body ++ (List.replicate k d.mark ++ '\\' :: '\n' :: b) := by
    rw [List.append_assoc, ← hbody]
    exact eq_of_opening hopen
  have hne : d.text ++ body ≠ [] := by
    intro hnil
    rw [(List.append_eq_nil_iff.mp hnil).1] at hlt
    exact Nat.not_lt_zero k hlt
  rw [hs, ← hlen, ← List.length_append] at hnext
  refine ⟨d.text ++ body ++ List.replicate k d.mark, b, ?_, ?_⟩
  · rw [List.append_assoc]
    exact hs
  · rw [hs, scriptScan_token hne hnext (by decide), scriptScan_marks (mark_of_opening hopen) hk rfl,
      Text.utf8Size_append (d.text ++ body), Text.newlines_append (d.text ++ body), Nat.zero_add,
      Nat.add_assoc]
    rfl

/-! ## Literals -/

theorem ofText?_eq_none_iff : Literal.ofText? s = none ↔
    (bodyUntil d.endsAt (s.drop d.text.length)).2 ≠ d.text := by
  obtain ⟨t, rfl, hm, _⟩ := exists_of_opening hopen
  unfold Literal.ofText?
  simp only [lettersOf_of_mark hm, List.length_nil, List.drop_zero, hopen]
  split
  · next h => exact iff_of_false nofun fun hne => hne h
  · next h => exact iff_of_true rfl h

/-- **The literals of the grammar** are the delimited texts that are in triple marks or have no
carriage return of its own. -/
theorem ofText?_ne_none_iff : Literal.ofText? s ≠ none ↔
    IsDelimited s ∧ (d.triple = true ∨ ['\r'] ∉ units s) := by
  have hmark := mark_of_opening hopen
  have hslash := ne_backslash_of_opening hopen
  have hreturn : d.mark ≠ '\r' := by rcases hmark with h | h <;> rw [h] <;> decide
  rw [Ne, ofText?_eq_none_iff hopen, not_not, isDelimited_iff hopen,
    mem_units_drop hopen (by simpa using hreturn.symm)]
  obtain ⟨mark, _ | _⟩ := d
  · refine (endsAt_single_iff hslash hreturn).trans (and_congr_right fun _ => ?_)
    exact (or_iff_right Bool.false_ne_true).symm
  · rw [bounds_triple]
    exact (and_iff_left (Or.inl rfl)).symm

/-! ## Compiling -/

/-- A closed string with a value compiles to the encoding of its value. -/
theorem compile_of_isClosed (h : IsClosed s) (st : Settings) {v : Text} (hv : unquote s = .ok v) :
    compile st s = match st.encoding.encode? v with
      | some bs => .ok bs
      | none => .error ⟨1, .unencodable st.encoding.name⟩ := by
  have hne : s ≠ [] := by
    obtain ⟨t, rfl, _⟩ := exists_of_opening hopen
    exact List.cons_ne_nil _ _
  exact compile_string hne (next_of_isClosed hopen h) hv

theorem compile_of_escapedLineFeed (h : IsDelimited s) (hmem : escapedLineFeed ∈ units s)
    (st : Settings) : ∃ a b, s = a ++ '\\' :: '\n' :: b ∧
      compile st s = .error ⟨1 + a.newlines, .unexpected ['\\'] a.utf8Size⟩ := by
  obtain ⟨a, b, hs, hscan⟩ := scan_of_escapedLineFeed hopen h hmem
  refine ⟨a, b, hs, ?_⟩
  have hscript : scanScript s = .error ⟨1 + a.newlines, .unexpected ['\\'] a.utf8Size⟩ :=
    congrArg (Except.mapError _) hscan
  rw [compile_eq, hscript]
  rfl

end Opening

/-! ## Agreement -/

/-- The text is in triple marks. -/
def inTripleMarks (s : Text) : Bool := (Delimiter.opening? s).any Delimiter.triple

/-- A strict scan that keeps strings gives the text as one string with its closing marks. -/
def IsOneString (remove : List ScriptKind) (s : Text) : Prop :=
  scriptTable.scan remove true s = .ok [⟨.string, s, 0, 1⟩] ∧ IsClosed s

theorem isOneString_iff {d : Delimiter} {s : Text} (hopen : Delimiter.opening? s = some d)
    {remove : List ScriptKind} (hremove : .string ∉ remove) :
    IsOneString remove s ↔ IsDelimited s ∧ escapedLineFeed ∉ units s := by
  rw [← isClosed_iff hopen]
  exact ⟨And.right, fun h => ⟨scan_of_isClosed hopen h hremove, h⟩⟩

/-- **Where the scanner and the grammar of literals agree.** A literal is one string of a script
exactly if none of its backslashes stands in front of a line feed. A string of a script is a literal
exactly if it is in triple marks or has no carriage return without a backslash. A literal with a
value compiles to the encoding of the value, if there is one, but one with a backslash in front of a
line feed is no script: the scanner stops at the backslash. -/
theorem isOneString_iff_of_mark {s : Text} (hs : s.head?.any isQuote = true)
    {remove : List ScriptKind} (hremove : .string ∉ remove) :
    (unquote s ≠ .error .malformed → (IsOneString remove s ↔ escapedLineFeed ∉ units s)) ∧
    (IsOneString remove s →
      (unquote s ≠ .error .malformed ↔ inTripleMarks s = true ∨ ['\r'] ∉ units s)) ∧
    ∀ st v, unquote s = .ok v →
      if escapedLineFeed ∈ units s then
        ∃ a b, s = a ++ '\\' :: '\n' :: b ∧
          compile st s = .error ⟨1 + a.newlines, .unexpected ['\\'] a.utf8Size⟩
      else
        compile st s = match st.encoding.encode? v with
          | some bs => .ok bs
          | none => .error ⟨1, .unencodable st.encoding.name⟩ := by
  obtain ⟨d, hopen⟩ := exists_opening hs
  have htriple : inTripleMarks s = d.triple := by rw [inTripleMarks, hopen, Option.any_some]
  have hscanner := isOneString_iff hopen hremove
  have hgrammar : unquote s ≠ .error .malformed ↔
      IsDelimited s ∧ (d.triple = true ∨ ['\r'] ∉ units s) := by
    rw [Ne, unquote_eq_malformed_iff]
    exact ofText?_ne_none_iff hopen
  rw [htriple, hscanner, hgrammar]
  refine ⟨fun h => and_iff_right h.1, fun h => and_iff_right h.1, fun st v hv => ?_⟩
  have hdelimited : IsDelimited s := (hgrammar.mp (by rw [hv]; nofun)).1
  split
  · next hmem => exact compile_of_escapedLineFeed hopen hdelimited hmem st
  · next hnot => exact compile_of_isClosed hopen ((isClosed_iff hopen).mpr ⟨hdelimited, hnot⟩) st hv

/-- Two letters with a backslash and a line feed between them are a literal and no string, with a
carriage return between them a string and no literal. -/
theorem isOneString_iff_of_mark_return :
    (¬ IsOneString [] "'a\\\nb'".toList ∧ unquote "'a\\\nb'".toList = .ok "ab".toList ∧
      ∃ e, compile {} "'a\\\nb'".toList = .error e) ∧
    IsOneString [] "'a\rb'".toList ∧ unquote "'a\rb'".toList = .error .malformed := by
  have hescape : unquote "'a\\\nb'".toList = .ok "ab".toList := by decide +kernel
  have hone : IsOneString [] "'a\rb'".toList :=
    ⟨by decide +kernel, ⟨'\'', false⟩, by decide, by decide⟩
  obtain ⟨hagree, -, hcompile⟩ :=
    @isOneString_iff_of_mark "'a\\\nb'".toList (by decide) [] List.not_mem_nil
  have hreturn := (@isOneString_iff_of_mark "'a\rb'".toList (by decide) [] List.not_mem_nil).2.1 hone
  refine ⟨⟨fun h => ?_, hescape, ?_⟩, hone, ?_⟩
  · exact absurd ((hagree (by rw [hescape]; nofun)).mp h) (by decide)
  · have h := hcompile {} _ hescape
    rw [if_pos (by decide)] at h
    obtain ⟨a, b, -, h⟩ := h
    exact ⟨_, h⟩
  · by_contra h
    exact absurd (hreturn.mp h) (by decide)

/-- **Scanner and grammar do not always agree**, and a literal with a value need not compile. -/
theorem not_isOneString_iff_of_mark : ¬ ∀ s : Text, s.head?.any isQuote = true →
    (unquote s ≠ .error .malformed ↔ IsOneString [] s) ∧
    ∀ (st : Settings) v, unquote s = .ok v → compile st s = match st.encoding.encode? v with
      | some bs => .ok bs
      | none => .error ⟨1, .unencodable st.encoding.name⟩ := by
  intro h
  have hwrong := (h "'a\\\nb'".toList (by decide)).2 {} "ab".toList (by decide +kernel)
  exact absurd hwrong (by decide +kernel)

end ByteScript
