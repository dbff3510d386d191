import ByteScript.Proofs.Script.Binding
import ByteScript.Proofs.Script.StringToken
import ByteScript.Proofs.Script.TokenAlone

/-!
# The tokens of a script put together again

The texts of the tokens of a script, one on each line, are a script of the same tokens. A string in
triple marks that is not closed takes the line feed after it, but only one or two marks can come
after such a string, and it has no value, so a script that has one gives no bytes.

* `rejoin`: the texts of tokens, one on each line;
* `next_unclosed`, `exists_of_isUnclosed`: what comes after a string that runs on;
* `exists_scriptScan_rejoin`: the tokens again;
* **`scan_rejoin`**: their kinds and their bytes.
-/

namespace ByteScript

/-- The texts of tokens, one on each line. -/
def rejoin {κ : Type} (ts : List (Token κ)) : Text :=
  List.intercalate ['\n'] (ts.map Token.text)

theorem rejoin_singleton {κ : Type} (t : Token κ) : rejoin [t] = t.text :=
  List.intercalate_singleton

theorem rejoin_cons {κ : Type} (t : Token κ) {ts : List (Token κ)} (h : ts ≠ []) :
    rejoin (t :: ts) = t.text ++ '\n' :: rejoin ts := by
  obtain ⟨u, ts, rfl⟩ := List.exists_cons_of_ne_nil h
  simp [rejoin, List.intercalate_cons_cons]

/-! ## Strings that run on -/

section Unclosed

variable {mark : Char} {pending : Nat}

/-- A body in triple marks that is all of a text goes on in what follows. -/
theorem longBody_append_of_length {s : Text}
    (h : Pattern.longBody mark pending s = pending + s.length) (r : Text) :
    Pattern.longBody mark pending (s ++ r) = pending + s.length + Pattern.longBody mark 0 r := by
  fun_induction Pattern.longBody mark pending s with
  | case1 pending =>
    obtain rfl : pending = 0 := by simpa using h.symm
    simp
  | case2 pending => simp at h
  | case3 pending s => simp at h
  | case4 pending c s hc ih =>
    rw [List.length_cons, List.length_cons] at h ⊢
    rw [List.cons_append, List.cons_append, Pattern.longBody, if_neg hc, ih (by omega)]
    omega
  | case5 s h₁ h₂ => simp at h
  | case6 pending s hpending h₁ h₂ ih =>
    rw [List.length_cons] at h ⊢
    rw [List.cons_append, longBody_cons (ne_backslash h₁ h₂), if_pos rfl, if_neg hpending,
      ih (by omega)]
    omega
  | case7 pending c s h₁ h₂ hc ih =>
    rw [List.length_cons] at h ⊢
    rw [List.cons_append, longBody_cons (ne_backslash h₁ h₂), if_neg hc, ih (by omega)]
    omega

/-- An empty body that is not closed ends at the end of the text, or at a backslash at the end of a
line, up to two marks before that. -/
theorem exists_of_longBody_eq_zero (hp : pending ≤ 2) {s : Text}
    (h : Pattern.longBody mark pending s = 0)
    (hopen : [mark, mark, mark].isPrefixOf (List.replicate pending mark ++ s) = false) :
    ∃ k ≤ 2, List.replicate pending mark ++ s = List.replicate k mark ∨
      ∃ b : Text, b.head?.all (· == '\n') = true ∧
        List.replicate pending mark ++ s = List.replicate k mark ++ '\\' :: b := by
  fun_induction Pattern.longBody mark pending s with
  | case1 pending => exact ⟨pending, hp, Or.inl (List.append_nil _)⟩
  | case2 pending => exact ⟨pending, hp, Or.inr ⟨[], rfl, rfl⟩⟩
  | case3 pending s => exact ⟨pending, hp, Or.inr ⟨'\n' :: s, rfl, rfl⟩⟩
  | case4 pending c s hc ih => omega
  | case5 s h₁ h₂ => simp [List.replicate, List.isPrefixOf] at hopen
  | case6 pending s hpending h₁ h₂ ih =>
    have := @ih (by omega) h
    rw [List.replicate_succ', List.append_assoc] at this
    exact this hopen
  | case7 pending c s h₁ h₂ hc ih => omega

theorem longBody_replicate {k : Nat} (hk : k ≤ 2) (hmark : mark ≠ '\\') :
    Pattern.longBody mark 0 (List.replicate k mark) = 0 := by
  obtain rfl | rfl | rfl : k = 0 ∨ k = 1 ∨ k = 2 := by omega
  all_goals simp [List.replicate, longBody_cons hmark, Pattern.longBody]

end Unclosed

section Open

variable {c : Char} (hm : c = '\'' ∨ c = '"')

include hm

/-- A string that runs on takes as much of what follows as a body does. -/
theorem next_unclosed {t : Text} (ht : Pattern.longBody c 0 t = t.length) (r : Text) :
    scriptTable.next (c :: c :: c :: (t ++ r)) =
      (.string, 3 + (t.length + Pattern.longBody c 0 r) +
        if [c, c, c].isPrefixOf (r.drop (Pattern.longBody c 0 r)) then 3 else 0) := by
  have hquote := isQuote_iff_mark.mpr hm
  have hbody := longBody_append_of_length (ht.trans (Nat.zero_add _).symm) r
  rw [Nat.zero_add] at hbody
  refine next_of_isMarkOf (p := Pattern.string) (Or.inr (Or.inl ⟨hquote, rfl⟩)) rfl ?_
  rw [string_of_mark hm, quoted_triple hquote, hbody, ← List.drop_drop, List.drop_left' rfl]

/-- One or two marks are a string. -/
theorem next_marks {k : Nat} (hk : k ≤ 2) (hzero : k ≠ 0) :
    scriptTable.next (List.replicate k c) = (.string, (List.replicate k c).length) := by
  obtain rfl | rfl : k = 1 ∨ k = 2 := by omega
  all_goals rcases hm with rfl | rfl <;> rfl

end Open

/-- **At most two marks come after a string that runs on**, and it takes a line feed in front of
them. -/
theorem exists_of_isUnclosed {a b : Text} (hopen : IsUnclosed a)
    (ha : scriptTable.next a = (.string, a.length))
    (hab : scriptTable.next (a ++ b) = (.string, a.length)) {start line : Nat}
    {ts : List (Token ScriptKind)} (hscan : scriptScan start line b = .ok ts) :
    ∃ c k, (c = '\'' ∨ c = '"') ∧ k ≤ 2 ∧ b = List.replicate k c ∧
      scriptTable.next (a ++ '\n' :: b) = (.string, a.length + 1) := by
  obtain ⟨c, t, hm, rfl, hopen⟩ := hopen
  have hquote := isQuote_iff_mark.mpr hm
  have hslash : c ≠ '\\' := by rcases hm with rfl | rfl <;> decide
  have hall : Pattern.longBody c 0 t = t.length := by
    have := match_of_next (List.mem_iff_getElem?.mpr ⟨8, rfl⟩) ha
    rw [string_of_mark hm, quoted_triple hquote, hopen, if_neg Bool.false_ne_true,
      Option.some.injEq, List.length_cons, List.length_cons, List.length_cons] at this
    omega
  have hlength := (Prod.mk.inj ((next_unclosed hm hall b).symm.trans hab)).2
  rw [List.length_cons, List.length_cons, List.length_cons] at hlength
  have hzero : Pattern.longBody c 0 b = 0 := by omega
  have hrest : [c, c, c].isPrefixOf b = false := by
    rw [hzero, List.drop_zero] at hlength
    rw [Bool.eq_false_iff]
    intro hclosed
    rw [if_pos hclosed] at hlength
    omega
  obtain ⟨k, hk, hb | ⟨r, hr, hb⟩⟩ := exists_of_longBody_eq_zero (Nat.zero_le 2) hzero hrest
  · obtain rfl : b = List.replicate k c := hb
    refine ⟨c, k, hm, hk, rfl, ?_⟩
    have hfeed : Pattern.longBody c 0 ('\n' :: List.replicate k c) = 1 := by
      have hne : '\n' ≠ c := by rcases hm with rfl | rfl <;> decide
      rw [longBody_cons (by decide), if_neg hne, longBody_replicate hk hslash]
    have hmarks := @not_isPrefixOf_three c k hk [] (Option.some_ne_none c).symm
    rw [List.append_nil] at hmarks
    refine (next_unclosed hm hall _).trans (congrArg (Prod.mk _) ?_)
    rw [hfeed, List.drop_succ_cons, List.drop_zero, hmarks, if_neg Bool.false_ne_true,
      List.length_cons, List.length_cons, List.length_cons]
    omega
  · obtain rfl : b = List.replicate k c ++ '\\' :: r := hb
    rw [scriptScan_marks hm hk hr] at hscan
    cases hscan

/-! ## Scripts -/

/-- The tokens of a script, one on each line, are as many tokens of the same kinds, and the same
tokens if all strings have values. -/
theorem exists_scriptScan_rejoin {s : Text} {start line : Nat} {ts : List (Token ScriptKind)}
    (h : scriptScan start line s = .ok ts) (start' line' : Nat) :
    ∃ us, scriptScan start' line' (rejoin ts) = .ok us ∧
      us.map Token.kind = ts.map Token.kind ∧
      ((∀ t ∈ ts, t.kind = .string → ∃ v, unquote t.text = .ok v) →
        us.map Token.piece = ts.map Token.piece) := by
  induction hlen : s.length using Nat.strongRecOn generalizing s start line ts start' line' with
  | ind m ih => ?_
  cases s with
  | nil =>
    rw [scriptScan_nil] at h
    obtain rfl := Except.ok.inj h
    exact ⟨[], scriptScan_nil _ _, rfl, fun _ => rfl⟩
  | cons c s =>
    obtain ⟨k, a, b, ts, hab, hne, hnext, hk, hb, rfl⟩ := exists_of_scriptScan_cons h
    have hshort : b.length < m := hlen ▸ length_lt_of_eq_append hab hne
    rw [hab] at hnext
    by_cases hkept : k ∈ [ScriptKind.blank, .comment]
    · -- a token that is left out
      have hdrop : keepToken ⟨k, a, start, line⟩ ts = ts :=
        if_pos (List.contains_iff_mem.mpr hkept)
      rw [hdrop]
      exact ih b.length hshort hb start' line' rfl
    have hkept' : k ∉ [ScriptKind.mismatch, .blank, .comment] :=
      fun h => (List.mem_cons.mp h).elim hk hkept
    rw [keepToken_eq (t := ⟨k, a, start, line⟩) (by simpa using hkept)]
    have halone : scriptTable.next a = (k, a.length) := by
      have := next_take hnext hkept'
      rwa [List.take_left' rfl] at this
    change ∃ us, scriptScan start' line' (rejoin (⟨k, a, start, line⟩ :: ts)) = .ok us ∧
      us.map Token.kind = k :: ts.map Token.kind ∧ (_ → us.map Token.piece = (k, a) :: _)
    by_cases hlast : ts = []
    · -- the last token
      subst hlast
      rw [rejoin_singleton]
      exact ⟨[⟨k, a, start', line'⟩], scriptScan_single hne hkept' halone start' line', rfl,
        fun _ => rfl⟩
    rw [rejoin_cons _ hlast]
    by_cases hopen : k = .string ∧ IsUnclosed a
    · -- a string that runs on takes the line feed, and a string of one or two marks comes last
      obtain ⟨rfl, hopen⟩ := hopen
      obtain ⟨q, n, hm, hn, rfl, hlong⟩ := exists_of_isUnclosed hopen halone hnext hb
      have hzero : n ≠ 0 := by
        rintro rfl
        rw [List.replicate_zero, scriptScan_nil] at hb
        exact hlast (Except.ok.inj hb).symm
      have hmarks : List.replicate n q ≠ [] := by simpa using hzero
      have hsingle := scriptScan_single hmarks (by decide) (next_marks hm hn hzero)
      obtain rfl := Except.ok.inj (hb.symm.trans (hsingle _ _))
      rw [rejoin_singleton]
      rw [← List.singleton_append, ← List.append_assoc] at hlong ⊢
      have hlength : (a ++ ['\n']).length = a.length + 1 := by simp
      rw [scriptScan_token (by simp) (hlength ▸ hlong) (by decide), hsingle]
      refine ⟨_, rfl, rfl, fun hvalue => ?_⟩
      obtain ⟨v, hv⟩ := hvalue _ List.mem_cons_self rfl
      have hstring := match_of_next (List.mem_iff_getElem?.mpr ⟨8, rfl⟩) halone
      refine absurd hopen (not_isUnclosed_of_unquote hstring ?_)
      rw [List.take_length]
      exact fun hmalformed => by cases hv.symm.trans hmalformed
    · have hlexeme := isLexeme_of_next halone hkept' fun hstring hrun => hopen ⟨hstring, hrun⟩
      have hline := scriptScan_lexeme (by decide) hlexeme start' line' (rejoin ts)
      rw [List.append_assoc, List.singleton_append] at hline
      obtain ⟨us, hus, hkinds, hpieces⟩ := ih b.length hshort hb
        (start' + Text.utf8Size (a ++ ['\n'])) (line' + Text.newlines (a ++ ['\n'])) rfl
      refine ⟨⟨k, a, start', line'⟩ :: us, ?_, congrArg (k :: ·) hkinds, fun hvalue => ?_⟩
      · change scriptScan start' line' (a ++ '\n' :: rejoin ts) = _
        rw [hline, hus]
        rfl
      · exact congrArg ((k, a) :: ·) (hpieces fun t ht => hvalue t (List.mem_cons_of_mem _ ht))

/-- **The tokens of a script put together again.** The texts of the tokens that a script is cut into,
one on each line, are cut into as many tokens of the same kinds, and compile to the same bytes if
the script compiles. -/
theorem scan_rejoin {s : Text} {ts : List (Token ScriptKind)}
    (h : scriptTable.scan [.blank, .comment] true s = .ok ts) :
    (∃ us, scriptTable.scan [.blank, .comment] true (rejoin ts) = .ok us ∧
      us.map Token.kind = ts.map Token.kind) ∧
    ∀ st bs, compile st s = .ok bs → compile st (rejoin ts) = .ok bs := by
  obtain ⟨us, hus, hkinds, hpieces⟩ := exists_scriptScan_rejoin h 0 1
  refine ⟨⟨us, hus, hkinds⟩, fun st bs hbytes => ?_⟩
  obtain ⟨ts', p, hts, hexec, rfl⟩ := exists_exec_of_compile hbytes
  obtain rfl := Except.ok.inj ((scanScript_eq_ok_iff.mp hts).symm.trans h)
  have hsame := hpieces fun t ht hkind => exists_unquote_of_exec hexec ht hkind
  have hexecutes := executes_of_exec (defineWithin_line _) hexec
  rw [← hsame] at hexecutes
  exact compile_of_executes (scanScript_eq_ok_iff.mpr hus) hexecutes

/-- A string that runs on and the mark after it are two strings again; digits with a blank after them
and a string beyond a comment give the same bytes. -/
theorem scan_rejoin_comment :
    (scriptTable.scan [.blank, .comment] true "'''a'".toList =
        .ok [⟨.string, "'''a".toList, 0, 1⟩, ⟨.string, ['\''], 4, 1⟩] ∧
      ∃ us, scriptTable.scan [.blank, .comment] true "'''a\n'".toList = .ok us ∧
        us.map Token.kind = [.string, .string]) ∧
    scriptTable.scan [.blank, .comment] true "1 /* one */ 'x'".toList =
      .ok [⟨.binary, "1 ".toList, 0, 1⟩, ⟨.string, "'x'".toList, 12, 1⟩] ∧
    compile {} "1 /* one */ 'x'".toList = .ok [0, 0, 0, 1, 120] ∧
    compile {} "1 \n'x'".toList = .ok [0, 0, 0, 1, 120] := by
  have hopen : scriptTable.scan [.blank, .comment] true "'''a'".toList =
      .ok [⟨.string, "'''a".toList, 0, 1⟩, ⟨.string, ['\''], 4, 1⟩] := by decide +kernel
  have hcomment : scriptTable.scan [.blank, .comment] true "1 /* one */ 'x'".toList =
      .ok [⟨.binary, "1 ".toList, 0, 1⟩, ⟨.string, "'x'".toList, 12, 1⟩] := by decide +kernel
  have hbytes : compile {} "1 /* one */ 'x'".toList = .ok [0, 0, 0, 1, 120] := by decide +kernel
  exact ⟨⟨hopen, (scan_rejoin hopen).1⟩, hcomment, hbytes, (scan_rejoin hcomment).2 {} _ hbytes⟩

end ByteScript
