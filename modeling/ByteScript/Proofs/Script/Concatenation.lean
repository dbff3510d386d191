import ByteScript.Proofs.Scan.Cut
import ByteScript.Proofs.Script.LineEnd

/-!
# Scripts one after the other

A script that scans and has no string without a value is cut into the same tokens whatever script
follows it, if a line ends between the two.

* `Pattern.Fits`, `fits_of_mem`: every pattern takes at least one character and no more than there
  are;
* `exists_of_next`, `match_of_next`, `match_of_cutsOff`: the pattern that a token is from;
  `not_mem_take`: a token of a pattern that looks at the first line is within it;
* `next_append`, `exists_of_scriptScan_append`: the first token of such a script;
* **`scriptScan_append`**: all of its tokens.
-/

namespace ByteScript

/-! ## What a pattern takes -/

theorem length_of_drop_eq_cons {α : Type} {s r : List α} {a : α} {n : Nat}
    (h : s.drop n = a :: r) : s.length = n + 1 + r.length := by
  have := congrArg List.length h
  rw [List.length_drop, List.length_cons] at this
  omega

theorem longBody_le (mark : Char) (pending : Nat) (s : Text) :
    Pattern.longBody mark pending s ≤ pending + s.length := by
  fun_induction Pattern.longBody mark pending s <;>
    simp only [List.length_cons, List.length_nil] <;> omega

/-- Every match has at least one character and no more than there are. -/
def Pattern.Fits (p : Pattern) : Prop := ∀ s n, p s = some n → 0 < n ∧ n ≤ s.length

theorem fits_commentBody (star : Bool) : Pattern.Fits (Pattern.commentBody star) := by
  intro s n h
  induction s generalizing star n with
  | nil => cases h
  | cons c s ih =>
    rw [Pattern.commentBody] at h
    rw [List.length_cons]
    split at h
    · obtain rfl := Option.some.inj h
      omega
    · obtain ⟨m, hm, rfl⟩ := Option.map_eq_some_iff.mp h
      have := ih _ m hm
      omega

theorem closing_le {p s : Text} {k n : Nat} (hp : p.length = k) (hn : n ≤ s.length) :
    n + (if p.isPrefixOf (s.drop n) then k else 0) ≤ s.length := by
  split
  · rename_i h
    have := (List.isPrefixOf_iff_prefix.mp h).length_le
    rw [List.length_drop] at this
    omega
  · exact hn

theorem fits_quoted : Pattern.quoted.Fits := by
  intro s n h
  cases s with
  | nil => cases h
  | cons c s =>
    have hc : isQuote c = true := by
      by_contra hc
      rw [Pattern.quoted, Bool.eq_false_iff.mpr hc] at h
      cases h
    rw [quoted_cons hc] at h
    rw [List.length_cons]
    split at h
    · rename_i htriple
      obtain ⟨t, rfl⟩ := List.isPrefixOf_iff_prefix.mp htriple
      have hdrop : ([c, c] ++ t).drop 2 = t := rfl
      have hlen : ([c, c] ++ t).length = t.length + 2 := rfl
      have hbody := longBody_le c 0 t
      rw [Nat.zero_add] at hbody
      have hclosed := closing_le (k := 3) (p := [c, c, c]) rfl hbody
      rw [← List.drop_drop, hdrop] at h
      obtain rfl := Option.some.inj h
      omega
    · have hclosed := closing_le (k := 1) (p := [c]) rfl (shortBody_le c s)
      obtain rfl := Option.some.inj h
      omega

theorem fits_definition : Pattern.definition.Fits := by
  intro s n h
  unfold Pattern.definition at h
  split at h
  · dsimp only at h
    split at h
    · rename_i s r hr
      have hlen := length_of_drop_eq_cons hr
      have hrun := length_takeWhile_le (· != '\n') r
      split at h
      · cases h
      · obtain rfl := Option.some.inj h
        rw [List.length_cons]
        omega
    · cases h
  · cases h

theorem fits_sizeDefinition : Pattern.sizeDefinition.Fits := by
  intro s n h
  unfold Pattern.sizeDefinition at h
  split at h
  · dsimp only at h
    split at h
    · rename_i s r hr
      have hlen := length_of_drop_eq_cons hr
      have hrun : digitsLength r ≤ r.length := length_takeWhile_le Char.isDigit r
      split at h
      · cases h
      · obtain rfl := Option.some.inj h
        rw [List.length_cons]
        omega
    · cases h
  · cases h

theorem fits_pad : Pattern.pad.Fits := by
  intro s n h
  unfold Pattern.pad at h
  split at h
  · dsimp only at h
    split at h
    · obtain rfl := Option.some.inj h
      rw [List.length_cons]
      omega
    · cases h
  · cases h

theorem fits_float : Pattern.float.Fits := by
  intro s n h
  unfold Pattern.float at h
  dsimp only at h
  split at h
  · rename_i r hr
    have hlen := length_of_drop_eq_cons hr
    have hrun : digitsLength r ≤ r.length := length_takeWhile_le Char.isDigit r
    split at h
    · cases h
    · obtain rfl := Option.some.inj h
      omega
  · cases h

theorem fits_integer : Pattern.integer.Fits := by
  intro s n h
  have hrun : digitsLength (s.drop 1) ≤ s.length - 1 := by
    rw [← List.length_drop]
    exact length_takeWhile_le Char.isDigit (s.drop 1)
  unfold Pattern.integer at h
  dsimp only at h
  split at h
  · cases h
  · obtain rfl := Option.some.inj h
    omega

theorem fits_hex : Pattern.hex.Fits := by
  intro s n h
  unfold Pattern.hex at h
  split at h
  · rename_i s
    have hrun := length_takeWhile_le isHexDigit s
    dsimp only at h
    split at h
    · cases h
    · obtain rfl := Option.some.inj h
      rw [List.length_cons]
      omega
  · cases h

theorem fits_binary : Pattern.binary.Fits := by
  intro s n h
  unfold Pattern.binary at h
  split at h
  · cases h
  · rename_i c s
    have hrun := length_takeWhile_le (fun c => c == '0' || c == '1' || c == ' ' || c == '_') s
    split at h
    · obtain rfl := Option.some.inj h
      rw [List.length_cons]
      omega
    · cases h

theorem fits_reference : Pattern.reference.Fits := by
  intro s n h
  unfold Pattern.reference at h
  split at h
  · rename_i s
    have hname := nameLength_le s
    split at h
    · cases h
    · obtain rfl := Option.some.inj h
      rw [List.length_cons]
      omega
  · have hname := nameLength_le s
    split at h
    · cases h
    · obtain rfl := Option.some.inj h
      omega

theorem fits_string : Pattern.string.Fits := by
  intro s n h
  obtain ⟨m, hm, rfl⟩ := Option.map_eq_some_iff.mp h
  obtain ⟨hpos, hle⟩ := fits_quoted _ _ hm
  rw [List.length_drop] at hle
  omega

theorem fits_comment : Pattern.comment.Fits := by
  intro s n h
  unfold Pattern.comment at h
  split at h
  · obtain ⟨m, hm, rfl⟩ := Option.map_eq_some_iff.mp h
    have hbody := fits_commentBody _ _ _ hm
    rw [List.length_cons, List.length_cons]
    omega
  · cases h

theorem fits_many1 (p : Char → Bool) : (Pattern.many1 p).Fits := by
  intro s n h
  have hrun := length_takeWhile_le p s
  unfold Pattern.many1 at h
  dsimp only at h
  split at h
  · cases h
  · obtain rfl := Option.some.inj h
    omega

/-- **Every pattern of a script takes at least one character and no more than there are.** -/
theorem fits_of_mem {e : ScriptKind × Pattern} (he : e ∈ scriptTable.patterns) : e.2.Fits := by
  simp only [scriptTable, List.mem_cons, List.not_mem_nil, or_false] at he
  rcases he with rfl | rfl | rfl | rfl | rfl | rfl | rfl | rfl | rfl | rfl | rfl
  exacts [fits_definition, fits_sizeDefinition, fits_pad, fits_float, fits_integer, fits_hex,
    fits_binary, fits_reference, fits_string, fits_comment, fits_many1 isBlank]

/-! ## The first token -/

/-- The pattern that a token is from, with none before it that matches. -/
theorem exists_of_next {s : Text} {k : ScriptKind} {n : Nat} (h : scriptTable.next s = (k, n))
    (hk : k ≠ .mismatch) : ∃ i p, scriptTable.patterns[i]? = some (k, p) ∧ p s = some n ∧
      ∀ q ∈ (scriptTable.patterns.take i).map Prod.snd, q s = none := by
  cases Table.next_eq_iff.mp h with
  | @pattern before after k p n horder hempty hmatched _ =>
    refine ⟨before.length, p, by rw [horder]; simp, hmatched, fun q hq => ?_⟩
    rw [horder, List.take_left' rfl] at hq
    obtain ⟨e, he, rfl⟩ := List.mem_map.mp hq
    have hmem : e ∈ scriptTable.patterns := horder ▸ List.mem_append_left _ he
    cases hm : e.2 s with
    | none => rfl
    | some m => exact absurd (hempty e he m hm) (Nat.ne_of_gt (fits_of_mem hmem s m hm).1)
  | mismatch => exact absurd rfl hk

/-- A token has at least one character and no more than there are. -/
theorem next_le {s : Text} {k : ScriptKind} {n : Nat} (h : scriptTable.next s = (k, n))
    (hk : k ≠ .mismatch) : 0 < n ∧ n ≤ s.length := by
  obtain ⟨i, p, hi, hp, _⟩ := exists_of_next h hk
  exact fits_of_mem (List.mem_of_getElem? hi) s n hp

/-- A token is what the pattern of its kind takes. -/
theorem match_of_next {k : ScriptKind} {p : Pattern} (hp : (k, p) ∈ scriptTable.patterns) {s : Text}
    {n : Nat} (h : scriptTable.next s = (k, n)) : p s = some n := by
  have hkinds : (scriptTable.patterns.map Prod.fst).Nodup := by decide
  have hmismatch : ∀ e ∈ scriptTable.patterns, e.1 ≠ .mismatch := by decide
  obtain ⟨i, q, hi, hq, _⟩ := exists_of_next h (hmismatch _ hp)
  obtain rfl := (Prod.mk.inj
    (List.inj_on_of_nodup_map hkinds (List.mem_of_getElem? hi) hp rfl)).2
  exact hq

/-- A piece that the table cuts off is what the pattern of its kind takes. -/
theorem match_of_cutsOff {k : ScriptKind} {p : Pattern} (hp : (k, p) ∈ scriptTable.patterns)
    {a b : Text} (h : scriptTable.CutsOff k a b) : p (a ++ b) = some a.length := by
  have hmatch : p (a ++ b) = some (scriptTable.next (a ++ b)).2 :=
    match_of_next hp (Prod.ext h.kind rfl)
  have hlength := List.length_take_of_le (fits_of_mem hp _ _ hmatch).2
  rw [h.take] at hlength
  rw [hmatch, hlength]

/-- What a pattern takes that looks at the first line is within that line. -/
theorem not_mem_take {p : Pattern} (hfits : p.Fits) (hline : p.InLine) {s : Text} {n : Nat}
    (h : p s = some n) : '\n' ∉ s.take n := by
  rw [← hline] at h
  have hle := (hfits _ _ h).2
  have htake : s.take n = (firstLine s).take n := by
    conv_lhs => rw [← List.takeWhile_append_dropWhile (p := (· != '\n')) (l := s)]
    exact List.take_append_of_le_length hle
  intro hmem
  rw [htake] at hmem
  exact absurd (List.all_eq_true.mp List.all_takeWhile _ (List.mem_of_mem_take hmem)) (by decide)

/-- Where no pattern matches there is no token. -/
theorem next_mismatch {s : Text} (h : ∀ q ∈ scriptTable.patterns.map Prod.snd, q s = none) :
    scriptTable.next s = (.mismatch, 1) := by
  refine Table.next_eq_iff.mpr (.mismatch fun e he n hn => ?_)
  rw [h e.2 (List.mem_map_of_mem he)] at hn
  cases hn

/-- A number sign before the end of a line is no token. -/
theorem next_mark (r : Text) : scriptTable.next ('#' :: '\n' :: r) = (.mismatch, 1) := by
  refine next_mismatch fun q hq => ?_
  obtain ⟨e, he, rfl⟩ := List.mem_map.mp hq
  have hhex : scriptTable.patterns[5]? = some (.hex, Pattern.hex) := rfl
  have hkinds : ∀ e ∈ scriptTable.patterns, e.1.startsWith '#' = true → e.1 = .hex := by decide
  exact eq_none_of_kind hhex rfl he (hkinds e he)

section First

variable {c : Char}

theorem ne_none_of_reference {s : Text} (hn : isNameStart c = true) :
    Pattern.reference (c :: s) ≠ none := by
  have hlen : nameLength (c :: s) = 1 + (s.takeWhile isNameChar).length := if_pos hn
  unfold Pattern.reference
  split
  · rename_i he
    obtain ⟨rfl, _⟩ := List.cons.inj he
    exact absurd hn (by decide)
  · rw [if_neg (by omega)]
    exact Option.some_ne_none _

/-- The only pattern that can match where this character comes first. -/
def IsMarkOf (c : Char) (i : Nat) : Prop :=
  c = '[' ∧ i = 2 ∨ isQuote c = true ∧ i = 8 ∨ c = '/' ∧ i = 9

theorem eq_none_of_isMarkOf {i j : Nat} (hc : IsMarkOf c i) {e : ScriptKind × Pattern}
    (he : scriptTable.patterns[j]? = some e) (hne : j ≠ i) (s : Text) : e.2 (c :: s) = none := by
  have hother : ∀ j < scriptTable.patterns.length, j ≠ i →
      (scriptTable.patterns[j]?).all (fun e => !e.1.startsWith c) = true := by
    rcases hc with ⟨rfl, rfl⟩ | ⟨hq, rfl⟩ | ⟨rfl, rfl⟩
    · decide
    · rcases isQuote_iff_mark.mp hq with rfl | rfl <;> decide
    · decide
  have hstart := hother j (List.getElem?_eq_some_iff.mp he).1 hne
  rw [he, Option.all_some, Bool.not_eq_true'] at hstart
  exact eq_none_of_startsWith (List.mem_of_getElem? he) hstart

theorem next_of_isMarkOf {i : Nat} (hc : IsMarkOf c i) {k : ScriptKind} {p : Pattern}
    (hi : scriptTable.patterns[i]? = some (k, p)) {s : Text} {n : Nat} (hp : p (c :: s) = some n) :
    scriptTable.next (c :: s) = (k, n) := by
  have hpos := (fits_of_mem (List.mem_of_getElem? hi) _ _ hp).1
  refine next_eq i hi (fun q hq => ?_) hp (Nat.ne_of_gt hpos)
  obtain ⟨e, he, rfl⟩ := List.mem_map.mp hq
  obtain ⟨j, hj⟩ := List.mem_iff_getElem?.mp he
  rw [List.getElem?_take] at hj
  split at hj
  · exact eq_none_of_isMarkOf hc hj (by omega) s
  · cases hj

/-- The patterns before those of strings, comments and blanks look at the first line only, where the
first character belongs to no pattern alone. -/
theorem agree_of_not_isMarkOf {s s' : Text} (hline : firstLine (c :: s') = firstLine (c :: s))
    (hmark : ¬ ∃ i, IsMarkOf c i) {q : Pattern}
    (hq : q ∈ (scriptTable.patterns.take 8).map Prod.snd) : q (c :: s') = q (c :: s) := by
  have hbracket : ScriptKind.pad.startsWith c = false :=
    beq_eq_false_iff_ne.mpr fun h => hmark ⟨2, Or.inl ⟨h, rfl⟩⟩
  have inLine : ∀ {q : Pattern}, q.InLine → q (c :: s') = q (c :: s) := fun h => by
    rw [← h (c :: s'), hline, h]
  simp only [scriptTable, List.take, List.map_cons, List.map_nil, List.mem_cons,
    List.not_mem_nil, or_false] at hq
  rcases hq with rfl | rfl | rfl | rfl | rfl | rfl | rfl | rfl
  · exact inLine inLine_definition
  · exact inLine inLine_sizeDefinition
  · rw [pad_eq_none hbracket, pad_eq_none hbracket]
  · exact inLine inLine_float
  · exact inLine inLine_integer
  · exact inLine inLine_hex
  · exact inLine inLine_binary
  · exact inLine inLine_reference

/-- A token that starts with neither a blank nor a character of one pattern alone is from one of
the first patterns. -/
theorem lt_of_not_isMarkOf (hmark : ¬ ∃ i, IsMarkOf c i) (hblank : isBlank c = false) {s : Text}
    {i : Nat} {k : ScriptKind} {p : Pattern} {n : Nat}
    (hi : scriptTable.patterns[i]? = some (k, p)) (hp : p (c :: s) = some n)
    (hbefore : ∀ q ∈ (scriptTable.patterns.take i).map Prod.snd, q (c :: s) = none) : i < 8 := by
  by_contra h8
  have hslash : ScriptKind.comment.startsWith c = false :=
    beq_eq_false_iff_ne.mpr fun h => hmark ⟨9, Or.inr (Or.inr ⟨h, rfl⟩)⟩
  have hquote : isQuote c = false := Bool.eq_false_iff.mpr fun h =>
    hmark ⟨8, Or.inr (Or.inl ⟨h, rfl⟩)⟩
  have hreference : Pattern.reference (c :: s) = none := by
    refine hbefore _ (List.mem_map.mpr ⟨(.reference, Pattern.reference), ?_, rfl⟩)
    refine (List.take_sublist_take_left (Nat.le_of_not_lt h8)).subset ?_
    exact List.mem_iff_getElem?.mpr ⟨7, rfl⟩
  have hn : isNameStart c = false := Bool.eq_false_iff.mpr fun hn =>
    ne_none_of_reference hn hreference
  obtain ⟨j, rfl⟩ := Nat.exists_eq_add_of_le (Nat.le_of_not_lt h8)
  rcases j with _ | _ | _ | j
  · obtain ⟨rfl, rfl⟩ := Prod.mk.inj (Option.some.inj hi)
    rw [string_eq_none (Bool.or_eq_false_iff.mpr ⟨hquote, hn⟩)] at hp
    cases hp
  · obtain ⟨rfl, rfl⟩ := Prod.mk.inj (Option.some.inj hi)
    rw [comment_eq_none hslash] at hp
    cases hp
  · obtain ⟨rfl, rfl⟩ := Prod.mk.inj (Option.some.inj hi)
    rw [many1_eq_none hblank] at hp
    cases hp
  · rw [Nat.add_comm] at hi
    cases hi

/-- **The first token of a script** is the same whatever follows, unless it is a string that runs on,
if its first line is. -/
theorem next_append {s r : Text} (hline : firstLine (c :: s ++ r) = firstLine (c :: s))
    (hblank : isBlank c = false) {k : ScriptKind} {n : Nat}
    (hnext : scriptTable.next (c :: s) = (k, n)) (hk : k ≠ .mismatch)
    (hclosed : k = .string → ¬ IsUnclosed (c :: s)) :
    scriptTable.next (c :: s ++ r) = (k, n) := by
  obtain ⟨i, p, hi, hp, hbefore⟩ := exists_of_next hnext hk
  have hpos := (fits_of_mem (List.mem_of_getElem? hi) _ _ hp).1
  by_cases hmark : ∃ m, IsMarkOf c m
  · -- one pattern can match here, and it has an end of its own
    obtain ⟨m, hm⟩ := hmark
    obtain rfl : i = m := by
      by_contra him
      have hnone := eq_none_of_isMarkOf hm hi him s
      exact Option.some_ne_none n (hp.symm.trans hnone)
    refine next_of_isMarkOf hm hi ?_
    rcases hm with ⟨rfl, rfl⟩ | ⟨hq, rfl⟩ | ⟨rfl, rfl⟩
    · obtain ⟨rfl, rfl⟩ := Prod.mk.inj (Option.some.inj hi)
      exact pad_append hp r
    · obtain ⟨rfl, rfl⟩ := Prod.mk.inj (Option.some.inj hi)
      exact (string_append hq hline (hclosed rfl)).trans hp
    · obtain ⟨rfl, rfl⟩ := Prod.mk.inj (Option.some.inj hi)
      exact comment_append hp r
  · have hagree := fun q hq => @agree_of_not_isMarkOf c s (s ++ r) hline hmark q hq
    have h8 := lt_of_not_isMarkOf hmark hblank hi hp hbefore
    have hmem : p ∈ (scriptTable.patterns.take 8).map Prod.snd := by
      refine List.mem_map.mpr ⟨(k, p), List.mem_iff_getElem?.mpr ⟨i, ?_⟩, rfl⟩
      rw [List.getElem?_take, if_pos h8, hi]
    refine next_eq i hi (fun q hq => ?_) ((hagree p hmem).trans hp) (Nat.ne_of_gt hpos)
    have hsub : q ∈ (scriptTable.patterns.take 8).map Prod.snd := by
      obtain ⟨e, he, rfl⟩ := List.mem_map.mp hq
      exact List.mem_map_of_mem ((List.take_sublist_take_left (Nat.le_of_lt h8)).subset he)
    exact (hagree q hsub).trans (hbefore q hq)

end First

/-! ## All tokens -/

theorem mem_keepToken {t u : Token ScriptKind} {ts : List (Token ScriptKind)} (h : u ∈ ts) :
    u ∈ keepToken t ts := by
  unfold keepToken
  split
  · exact h
  · exact List.mem_cons_of_mem _ h

theorem keepToken_append (t : Token ScriptKind) (ts us : List (Token ScriptKind)) :
    keepToken t (ts ++ us) = keepToken t ts ++ us := by
  unfold keepToken
  split <;> rfl

theorem length_lt_of_eq_append {s a b : Text} (h : s = a ++ b) (hne : a ≠ []) :
    b.length < s.length := by
  have := List.length_pos_iff.mpr hne
  rw [h, List.length_append]
  omega

/-- The first token of a script that scans, and the tokens after it. -/
theorem exists_of_scriptScan_cons {c : Char} {s : Text} {start line : Nat}
    {ts : List (Token ScriptKind)} (h : scriptScan start line (c :: s) = .ok ts) :
    ∃ (k : ScriptKind) (a b : Text) (us : List (Token ScriptKind)), c :: s = a ++ b ∧ a ≠ [] ∧
      scriptTable.next (c :: s) = (k, a.length) ∧ k ≠ .mismatch ∧
      scriptScan (start + a.utf8Size) (line + a.newlines) b = .ok us ∧
      ts = keepToken ⟨k, a, start, line⟩ us := by
  obtain ⟨k, n, hnext⟩ : ∃ k n, scriptTable.next (c :: s) = (k, n) := ⟨_, _, rfl⟩
  have hk : k ≠ .mismatch := by
    rintro rfl
    rw [scriptScan_mismatch hnext] at h
    cases h
  obtain ⟨hpos, hle⟩ := next_le hnext hk
  obtain ⟨a, b, hab, ha⟩ : ∃ a b : Text, c :: s = a ++ b ∧ a.length = n :=
    ⟨_, _, (List.take_append_drop n (c :: s)).symm, List.length_take_of_le hle⟩
  have hne : a ≠ [] := by
    rintro rfl
    exact absurd ha (Nat.ne_of_lt hpos)
  have htoken := scriptScan_token hne (by rw [← hab, hnext, ha]) hk start line
  rw [← hab, h] at htoken
  obtain ⟨us, hus, hts⟩ := exists_of_map_eq_ok htoken.symm
  exact ⟨k, a, b, us, hab, hne, ha ▸ hnext, hk, hus, hts.symm⟩

/-- The first token of a script that scans is the same whatever follows, unless it is a string that
is no literal. -/
theorem exists_of_scriptScan_append {c : Char} {s r : Text} (hend : LineEndsBetween (c :: s) r)
    (hblank : isBlank c = false) {start line : Nat} {ts : List (Token ScriptKind)}
    (h : scriptScan start line (c :: s) = .ok ts) :
    ∃ (k : ScriptKind) (a b : Text) (us : List (Token ScriptKind)), c :: s = a ++ b ∧ a ≠ [] ∧
      k ≠ .mismatch ∧ LineEndsBetween b r ∧
      scriptScan (start + a.utf8Size) (line + a.newlines) b = .ok us ∧
      ts = keepToken ⟨k, a, start, line⟩ us ∧
      ((k = .string → unquote a ≠ .error .malformed) →
        scriptScan start line (c :: s ++ r) =
          (scriptScan (start + a.utf8Size) (line + a.newlines) (b ++ r)).map
            (keepToken ⟨k, a, start, line⟩)) := by
  obtain ⟨k, a, b, us, hab, hne, hnext, hk, hus, hts⟩ := exists_of_scriptScan_cons h
  have htake : (c :: s).take a.length = a := by rw [hab, List.take_left' rfl]
  have hdrop : (c :: s).drop a.length = b := by rw [hab, List.drop_left' rfl]
  refine ⟨k, a, b, us, hab, hne, hk, hdrop ▸ hend.drop a.length, hus, hts, fun hliteral => ?_⟩
  have hlong : scriptTable.next (a ++ (b ++ r)) = (k, a.length) := by
    rw [← List.append_assoc, ← hab]
    refine next_append (hend.firstLine_append (List.cons_ne_nil c s)) hblank hnext hk ?_
    rintro rfl
    have hstring := match_of_next (List.mem_iff_getElem?.mpr ⟨8, rfl⟩) hnext
    exact not_isUnclosed_of_unquote hstring (htake.symm ▸ hliteral rfl)
  rw [hab, List.append_assoc, scriptScan_token hne hlong hk]

/-- **A script is cut into the same tokens whatever follows it**, if a line ends between the two and
all of its strings have values. -/
theorem scriptScan_append {h r : Text} (hend : LineEndsBetween h r) {start line : Nat}
    {ts : List (Token ScriptKind)} (hscan : scriptScan start line h = .ok ts)
    (hvalue : ∀ t ∈ ts, t.kind = .string → ∃ v, unquote t.text = .ok v) :
    scriptScan start line (h ++ r) =
      (scriptScan (start + h.utf8Size) (line + h.newlines) r).map (ts ++ ·) := by
  induction hlen : h.length using Nat.strongRecOn generalizing h start line ts with
  | ind m ih => ?_
  cases h with
  | nil =>
    rw [scriptScan_nil] at hscan
    obtain rfl := Except.ok.inj hscan
    rw [List.nil_append, Text.utf8Size_nil, Text.newlines_nil, Nat.add_zero, Nat.add_zero]
    cases scriptScan start line r <;> rfl
  | cons c s =>
    by_cases hblank : isBlank c = true
    · -- blanks of the script may run on into what follows, so they are passed over one by one
      rw [scriptScan_blank hblank] at hscan
      have hs : LineEndsBetween s r := hend.drop 1
      have := ih s.length (by rw [← hlen, List.length_cons]; omega) hs hscan hvalue rfl
      rw [List.cons_append, scriptScan_blank hblank, this,
        ← List.singleton_append (x := c) (l := s), Text.utf8Size_append, Text.newlines_append,
        Nat.add_assoc, Nat.add_assoc]
    · obtain ⟨k, a, b, us, hab, hne, -, hb, hus, rfl, hfirst⟩ :=
        exists_of_scriptScan_append hend (Bool.eq_false_iff.mpr hblank) hscan
      have hrest := ih b.length (hlen ▸ length_lt_of_eq_append hab hne) hb hus
        (fun t ht => hvalue t (mem_keepToken ht)) rfl
      have hliteral : k = .string → unquote a ≠ .error .malformed := by
        rintro rfl
        obtain ⟨v, hv⟩ := hvalue ⟨.string, a, start, line⟩ List.mem_cons_self rfl
        rw [hv]
        nofun
      rw [hfirst hliteral, hrest, hab, Text.utf8Size_append, Text.newlines_append, Nat.add_assoc,
        Nat.add_assoc]
      cases scriptScan (start + (a.utf8Size + b.utf8Size)) (line + (a.newlines + b.newlines)) r with
      | error e => rfl
      | ok vs => exact congrArg Except.ok (keepToken_append _ _ _)

end ByteScript
