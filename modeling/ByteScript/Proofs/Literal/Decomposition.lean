import ByteScript.Proofs.Literal.Escapes

/-!
# The parts of a literal

A text is a literal exactly if it is letters, opening marks, a body and the same marks again, where
the body is a sequence of units and does not end before any of them. There is one way at most to
take a text apart like this, although marks may stand in the body and a backslash may cover any
character. Everything else is malformed, and nothing of this form is.

* `units`, `IsBodyUnit`, `units_flatten`: the units of a body are found from its characters;
* `unquote_eq_malformed_iff`: a text is malformed exactly if it is no literal;
* `exists_of_opening`, `eq_of_opening`: opening marks; `lettersOf_append`: the letters in front;
* `Delimiter.Stops`, `bodyUntil_flatten`, `exists_units_of_bodyUntil`: where a body ends;
* `Literal.Spells`, `ofText?_eq_some_iff`: the form of a literal;
* **`unquote_accepts`**: the texts that are literals, and what their letters do.
-/

namespace ByteScript

/-! ## Units -/

/-- The units of a text: a backslash with the character after it, and any other character. -/
def units : Text → List Text
  | [] => []
  | '\\' :: c :: s => ['\\', c] :: units s
  | c :: s => [c] :: units s

theorem units_cons {c : Char} (h : c ≠ '\\') (s : Text) : units (c :: s) = [c] :: units s :=
  units.eq_3 _ _ fun _ _ hc => absurd hc h

theorem mem_of_mem_units {u s : Text} (hu : u ∈ units s) {c : Char} (hc : c ∈ u) : c ∈ s := by
  fun_induction units s with
  | case1 => cases hu
  | case2 d s ih =>
    rcases List.mem_cons.mp hu with rfl | hu
    · exact List.mem_append_left s hc
    · exact List.mem_cons_of_mem _ (List.mem_cons_of_mem _ (ih hu))
  | case3 d s _ ih =>
    rcases List.mem_cons.mp hu with rfl | hu
    · exact List.mem_append_left s hc
    · exact List.mem_cons_of_mem _ (ih hu)

/-- A unit of a body: a character that is no backslash, or a backslash and the character after
it. -/
inductive IsBodyUnit : Text → Prop
  | char {c : Char} (h : c ≠ '\\') : IsBodyUnit [c]
  | escape (c : Char) : IsBodyUnit ['\\', c]

/-- **Units are found from their characters.** -/
theorem units_flatten {us : List Text} (h : ∀ u ∈ us, IsBodyUnit u) : units us.flatten = us := by
  induction us with
  | nil => rfl
  | cons u us ih =>
    have hrest := ih fun v hv => h v (List.mem_cons_of_mem u hv)
    cases h u List.mem_cons_self with
    | char hc => simp [units_cons hc, hrest]
    | escape c => simp [units, hrest]

theorem bodyUntil_lone {stop : Text → Bool} (h : stop ['\\'] = false) :
    bodyUntil stop ['\\'] = (['\\'], []) := by
  have heq := bodyUntil.eq_3 stop '\\' [] fun _ _ _ hs => List.cons_ne_nil _ _ hs.symm
  rw [heq, h]
  rfl

theorem bodyUntil_unit {stop : Text → Bool} {c : Char} {s : Text}
    (h : stop ('\\' :: c :: s) = false) : bodyUntil stop ('\\' :: c :: s) =
      ('\\' :: c :: (bodyUntil stop s).1, (bodyUntil stop s).2) := by
  rw [bodyUntil, h, if_neg Bool.false_ne_true]

/-! ## Malformed literals -/

theorem expand_ne_malformed (s : Text) : expand s ≠ .error .malformed := by
  rw [expand_eq]
  split <;> nofun

/-- A text is malformed exactly if it is no literal: every other error is that of a literal. -/
theorem unquote_eq_malformed_iff {s : Text} :
    unquote s = .error .malformed ↔ Literal.ofText? s = none := by
  unfold unquote
  split
  · next h => exact iff_of_true rfl h
  · next l h =>
    refine iff_of_false (fun hvalue => ?_) (by rw [h]; nofun)
    unfold Literal.value at hvalue
    split at hvalue
    · cases hvalue
    · split at hvalue
      · cases hvalue
      · exact expand_ne_malformed _ hvalue

theorem unquote_of_ofText? {s : Text} {l : Literal} (h : Literal.ofText? s = some l) :
    unquote s = l.value := by
  rw [unquote, h]

/-! ## Opening marks -/

section Opening

variable {d : Delimiter} {s : Text}

theorem exists_opening (hs : s.head?.any isQuote = true) : ∃ d, Delimiter.opening? s = some d := by
  cases s with
  | nil => cases hs
  | cons c t =>
    rw [List.head?_cons, Option.any_some, isQuote, Bool.or_eq_true, beq_iff_eq, beq_iff_eq] at hs
    exact ⟨_, if_pos hs⟩

variable (hopen : Delimiter.opening? s = some d)

include hopen

/-- Opening marks are one or three of the same mark. -/
theorem exists_of_opening : ∃ t, s = d.mark :: t ∧ (d.mark = '\'' ∨ d.mark = '"') ∧
    d.triple = [d.mark, d.mark].isPrefixOf t := by
  unfold Delimiter.opening? at hopen
  split at hopen
  · rename_i c t
    split at hopen
    · next hc =>
      obtain rfl := Option.some.inj hopen
      exact ⟨t, rfl, hc, rfl⟩
    · cases hopen
  · cases hopen

theorem mark_of_opening : d.mark = '\'' ∨ d.mark = '"' :=
  (exists_of_opening hopen).elim fun _ h => h.2.1

theorem ne_backslash_of_opening : d.mark ≠ '\\' := by
  rcases mark_of_opening hopen with h | h <;> rw [h] <;> decide

/-- A text with opening marks is these marks and a rest. -/
theorem eq_of_opening : s = d.text ++ s.drop d.text.length := by
  obtain ⟨t, rfl, _, htriple⟩ := exists_of_opening hopen
  obtain ⟨mark, _ | _⟩ := d
  · rfl
  · obtain ⟨u, rfl⟩ := List.isPrefixOf_iff_prefix.mp htriple.symm
    rfl

end Opening

theorem Delimiter.text_eq_cons (d : Delimiter) : ∃ r, d.text = d.mark :: r := by
  obtain ⟨mark, _ | _⟩ := d
  · exact ⟨[], rfl⟩
  · exact ⟨[mark, mark], rfl⟩

/-- Marks are triple where three of them come first. -/
theorem opening?_iff {d : Delimiter} {s : Text} : Delimiter.opening? s = some d ↔
    (d.mark = '\'' ∨ d.mark = '"') ∧ s.head? = some d.mark ∧
      (d.triple = true ↔ List.replicate 3 d.mark <+: s) := by
  constructor
  · intro h
    obtain ⟨t, rfl, hm, htriple⟩ := exists_of_opening h
    refine ⟨hm, rfl, ?_⟩
    rw [htriple, List.isPrefixOf_iff_prefix]
    exact List.prefix_cons_inj d.mark |>.symm
  · rintro ⟨hm, hhead, htriple⟩
    cases s with
    | nil => cases hhead
    | cons c t =>
      obtain rfl := Option.some.inj hhead
      have hbool : d.triple = [d.mark, d.mark].isPrefixOf t := by
        rw [Bool.eq_iff_iff, htriple, List.isPrefixOf_iff_prefix]
        exact List.prefix_cons_inj d.mark
      rw [Delimiter.opening?, if_pos hm, ← hbool]

/-! ## Letters -/

/-- Letters that may stand before a literal, in any case, or none. -/
def IsLetters (p : Text) : Prop := p = [] ∨ p.lower ∈ Literal.letterChoices

theorem isLetters_lettersOf (s : Text) : IsLetters (Literal.lettersOf s) := by
  unfold Literal.lettersOf
  split
  · next l hl =>
    have hlower : ∀ l ∈ Literal.letterChoices, l.lower = l := by decide
    have hmem := List.mem_of_find?_eq_some hl
    have hsame := List.find?_some hl
    rw [Text.sameLetters, beq_iff_eq, hlower l hmem] at hsame
    rw [IsLetters, hsame]
    exact Or.inr hmem
  · exact Or.inl rfl

theorem lettersOf_isPrefix (s : Text) : Literal.lettersOf s <+: s := by
  unfold Literal.lettersOf
  split
  · exact List.take_prefix _ s
  · exact List.nil_prefix

/-- **The letters of a literal** are those in front of its mark. -/
theorem lettersOf_append {p q : Text} (hp : IsLetters p) (hq : q.head?.any isQuote = true) :
    Literal.lettersOf (p ++ q) = p := by
  obtain ⟨d, hopen⟩ := exists_opening hq
  obtain ⟨s, rfl, hm, -⟩ := exists_of_opening hopen
  generalize d.mark = c at hm
  rcases hp with rfl | hp
  · exact lettersOf_of_mark hm s
  have hlow : Text.lowerChar c = c := by rcases hm with rfl | rfl <;> rfl
  have htake : ∀ n, Text.lower ((p ++ c :: s).take n) = (p.lower ++ c :: Text.lower s).take n := by
    intro n
    simp [Text.lower, List.map_take, hlow]
  have hfind : (Literal.letterChoices.find? fun l =>
      Text.sameLetters ((p ++ c :: s).take l.length) l) = some p.lower := by
    simp only [Text.sameLetters, htake]
    generalize p.lower = l at hp ⊢
    simp only [Literal.letterChoices, List.map_cons, List.map_nil, List.mem_cons, List.not_mem_nil,
      or_false] at hp
    rcases hp with rfl | rfl | rfl | rfl | rfl | rfl | rfl | rfl <;> rcases hm with rfl | rfl <;>
      simp [Literal.letterChoices, Text.lower, Text.lowerChar]
  rw [Literal.lettersOf, hfind]
  dsimp only
  rw [Text.length_lower, List.take_left' rfl]

/-! ## Bodies -/

/-- The closing marks start here or, in single marks, a line ends. -/
def Delimiter.Stops (d : Delimiter) (s : Text) : Prop :=
  d.text <+: s ∨ d.triple = false ∧ (s.head? = some '\n' ∨ s.head? = some '\r')

theorem endsAt_iff {d : Delimiter} {s : Text} : d.endsAt s = true ↔ d.Stops s := by
  cases s <;> simp [Delimiter.endsAt, Delimiter.Stops]

section Body

variable {d : Delimiter} {us : List Text}

/-- **Units that the body does not end before** are read up to the closing marks. -/
theorem bodyUntil_flatten (hmark : d.mark ≠ '\\') (hus : ∀ u ∈ us, IsBodyUnit u)
    (hgo : ∀ vs, vs <:+ us → vs ≠ [] → ¬ d.Stops (vs.flatten ++ d.text)) :
    bodyUntil d.endsAt (us.flatten ++ d.text) = (us.flatten, d.text) := by
  induction us with
  | nil =>
    obtain ⟨r, hr⟩ := d.text_eq_cons
    have hends : d.endsAt d.text = true := endsAt_iff.mpr (Or.inl (List.prefix_refl _))
    rw [hr] at hends
    simp only [List.flatten_nil, List.nil_append, hr]
    rw [bodyUntil_cons hmark, if_pos hends]
  | cons u us ih =>
    have hrest := ih (fun v hv => hus v (List.mem_cons_of_mem u hv))
      fun vs hvs => hgo vs (hvs.trans (List.suffix_cons u us))
    have hends : d.endsAt ((u :: us).flatten ++ d.text) = false :=
      Bool.eq_false_iff.mpr fun h =>
        hgo (u :: us) (List.suffix_refl _) (List.cons_ne_nil u us) (endsAt_iff.mp h)
    rw [List.flatten_cons, List.append_assoc] at hends ⊢
    cases hus u List.mem_cons_self with
    | char hc =>
      rw [List.singleton_append] at hends ⊢
      rw [bodyUntil_cons hc, hends, hrest]
      rfl
    | escape c =>
      change d.endsAt ('\\' :: c :: (us.flatten ++ d.text)) = false at hends
      change bodyUntil d.endsAt ('\\' :: c :: (us.flatten ++ d.text)) = _
      rw [bodyUntil_unit hends, hrest]
      rfl

/-- **A body in front of something** consists of units, and it ends before none of them. -/
theorem exists_units_of_bodyUntil {stop : Text → Bool} {s : Text} (h : (bodyUntil stop s).2 ≠ []) :
    ∃ us, (∀ u ∈ us, IsBodyUnit u) ∧ (bodyUntil stop s).1 = us.flatten ∧
      ∀ vs, vs <:+ us → vs ≠ [] → stop (vs.flatten ++ (bodyUntil stop s).2) = false := by
  fun_induction bodyUntil stop s with
  | case1 => exact absurd rfl h
  | case2 c s hstop => exact ⟨[], by simp, rfl, by simp⟩
  | case3 c s hgo ih =>
    obtain ⟨us, hunits, hbody, hstop⟩ := ih h
    refine ⟨['\\', c] :: us, List.forall_mem_cons.mpr ⟨.escape c, hunits⟩, by simp [hbody], ?_⟩
    refine fun vs hvs hne => (List.suffix_cons_iff.mp hvs).elim (fun hall => ?_)
      fun hvs => hstop vs hvs hne
    have hwhole := bodyUntil_append stop s
    rw [hbody] at hwhole
    simpa [hall, hwhole] using hgo
  | case4 c s _ hstop => exact ⟨[], by simp, rfl, by simp⟩
  | case5 c s hslash hgo ih =>
    obtain ⟨us, hunits, hbody, hstop⟩ := ih h
    have hc : c ≠ '\\' := by
      -- a backslash with nothing after it leaves nothing behind
      rintro rfl
      cases s with
      | nil => exact h rfl
      | cons d t => exact hslash d t rfl rfl
    refine ⟨[c] :: us, List.forall_mem_cons.mpr ⟨.char hc, hunits⟩, by simp [hbody], ?_⟩
    refine fun vs hvs hne => (List.suffix_cons_iff.mp hvs).elim (fun hall => ?_)
      fun hvs => hstop vs hvs hne
    have hwhole := bodyUntil_append stop s
    rw [hbody] at hwhole
    simpa [hall, hwhole] using hgo

end Body

/-! ## Literals -/

/-- **The form of a literal**: letters, marks, a body of units and the same marks again. The marks
are triple where three of them come first, and the body ends before none of its units. -/
structure Literal.Spells (l : Literal) (us : List Text) (s : Text) : Prop where
  text_eq : s = l.letters ++ (l.delimiter.text ++ (l.body ++ l.delimiter.text))
  letters : IsLetters l.letters
  mark : l.delimiter.mark = '\'' ∨ l.delimiter.mark = '"'
  triple_iff : l.delimiter.triple = true ↔
    List.replicate 3 l.delimiter.mark <+: s.drop l.letters.length
  body : l.body = us.flatten
  isUnit : ∀ u ∈ us, IsBodyUnit u
  not_stops : ∀ vs, vs <:+ us → vs ≠ [] → ¬ l.delimiter.Stops (vs.flatten ++ l.delimiter.text)

/-- What the grammar finds has the form of a literal. -/
theorem Literal.exists_spells {s : Text} {l : Literal} (h : Literal.ofText? s = some l) :
    ∃ us, l.Spells us s := by
  have hs : Literal.lettersOf s ++ s.drop (Literal.lettersOf s).length = s :=
    List.prefix_iff_eq_append.mp (lettersOf_isPrefix s)
  unfold Literal.ofText? at h
  dsimp only at h
  generalize hmarked : s.drop (Literal.lettersOf s).length = marked at h hs
  split at h
  · cases h
  · next d hopen =>
    split at h
    · next hend =>
      obtain rfl := Option.some.inj h
      obtain ⟨hm, -, htriple⟩ := opening?_iff.mp hopen
      obtain ⟨r, hr⟩ := d.text_eq_cons
      obtain ⟨us, hunits, hbody, hstop⟩ :=
        exists_units_of_bodyUntil (by rw [hend, hr]; exact List.cons_ne_nil _ _)
      have hwhole := bodyUntil_append d.endsAt (marked.drop d.text.length)
      rw [hend] at hstop hwhole
      refine ⟨us, ?_, isLetters_lettersOf s, hm, by rwa [hmarked], hbody, hunits, ?_⟩
      · rw [hwhole, ← eq_of_opening hopen, hs]
      · intro vs hvs hne hends
        have := hstop vs hvs hne
        rw [endsAt_iff.mpr hends] at this
        cases this
    · cases h

/-- What has the form of a literal is found by the grammar. -/
theorem Literal.Spells.ofText?_eq {s : Text} {l : Literal} {us : List Text} (h : l.Spells us s) :
    Literal.ofText? s = some l := by
  obtain ⟨letters, d, body⟩ := l
  obtain ⟨hs, hletters, hm, htriple, rfl, hunits, hstop⟩ := h
  dsimp only at *
  have hslash : d.mark ≠ '\\' := by rcases hm with h | h <;> rw [h] <;> decide
  obtain ⟨r, hr⟩ := d.text_eq_cons
  have hquote : (d.text ++ (us.flatten ++ d.text)).head?.any isQuote = true := by
    rw [hr]
    exact isQuote_iff_mark.mpr hm
  have hfound : Literal.lettersOf s = letters := hs ▸ lettersOf_append hletters hquote
  have hdrop : s.drop letters.length = d.text ++ (us.flatten ++ d.text) := by
    rw [hs, List.drop_left' rfl]
  have hopen : Delimiter.opening? (d.text ++ (us.flatten ++ d.text)) = some d := by
    refine opening?_iff.mpr ⟨hm, by rw [hr]; rfl, ?_⟩
    rwa [hdrop] at htriple
  unfold Literal.ofText?
  simp only [hfound, hdrop, hopen, List.drop_left, bodyUntil_flatten hslash hunits hstop, if_true]

/-- **A text is a literal** exactly if it has the form of one. -/
theorem ofText?_eq_some_iff {s : Text} {l : Literal} :
    Literal.ofText? s = some l ↔ ∃ us, l.Spells us s :=
  ⟨Literal.exists_spells, fun ⟨_, h⟩ => h.ofText?_eq⟩

/-- **The texts that are literals.** A text is not malformed exactly if it has the form of a literal,
and then in one way only. Letters with an `f` have no value, a body after an `r` is its own value,
and any other body is read escape by escape. -/
theorem unquote_accepts (s : Text) :
    (unquote s ≠ .error .malformed ↔ ∃ (l : Literal) (us : List Text), l.Spells us s) ∧
    (∀ (l l' : Literal) (us us' : List Text), l.Spells us s → l'.Spells us' s →
      l = l' ∧ us = us') ∧
    ∀ (l : Literal) (us : List Text), l.Spells us s → unquote s =
      if 'f' ∈ l.letters.lower then .error .formatted
      else if 'r' ∈ l.letters.lower then .ok l.body
      else expand l.body := by
  refine ⟨?_, fun l l' us us' h h' => ?_, fun l us h => ?_⟩
  · rw [Ne, unquote_eq_malformed_iff, ← Ne, Option.ne_none_iff_exists']
    simp only [ofText?_eq_some_iff]
  · obtain rfl := Option.some.inj (h.ofText?_eq.symm.trans h'.ofText?_eq)
    refine ⟨rfl, ?_⟩
    rw [← units_flatten h.isUnit, ← units_flatten h'.isUnit, ← h.body, h'.body]
  · simp only [unquote_of_ofText? h.ofText?_eq, Literal.value,
      Literal.isFormatted, Literal.isRaw, List.contains_iff_mem]

/-- Marks in the body and one that a backslash covers do not end it, and four marks in a row are no
literal: three of them open one that is not closed. -/
theorem unquote_accepts_marks :
    unquote "Rb'''a'\\''''".toList = .ok "a'\\'".toList ∧
      ¬ ∃ (l : Literal) (us : List Text), l.Spells us "''''".toList := by
  constructor
  · have hliteral : Literal.ofText? "Rb'''a'\\''''".toList =
        some ⟨['R', 'b'], ⟨'\'', true⟩, "a'\\'".toList⟩ := by decide +kernel
    obtain ⟨us, h⟩ := ofText?_eq_some_iff.mp hliteral
    rw [(unquote_accepts _).2.2 _ us h, if_neg (by decide), if_pos (by decide)]
  · exact fun h => (unquote_accepts _).1.mpr h (unquote_eq_malformed_iff.mpr (by decide +kernel))

end ByteScript
