import ByteScript.Proofs.Script.StringToken
import ByteScript.Proofs.Script.Independence
import ByteScript.Proofs.Listing.WidthName

/-!
# Letters before a string

The grammar of literals takes letters before the marks as a part of the literal that says how to
read its body. In a script they are a name of their own, since names come before strings, and the
string after them is read without them.

* `valueLetters`: the letters of a literal with a value; `ofText?_append`: the literal that they
  start; `isClosed_of_unquote`: the string behind them;
* `scanScript_letters`: the two tokens of a script;
* `compile_append_identifier`, `compile_append_letters`: a script that ends with a name, or with
  letters and a string;
* **`compile_letters_string`**: a literal with letters at the end of a script.
-/

namespace ByteScript

/-! ## The literal -/

/-- The letters that a literal with a value may have. -/
def valueLetters : List Text := ["r", "u", "b", "br", "rb"].map String.toList

section Letters

variable {p q : Text}

theorem isIdentifier_of_mem_valueLetters (hp : p.lower ∈ valueLetters) : IsIdentifier p := by
  have hall : ∀ l ∈ valueLetters, IsIdentifier l := by decide
  exact isIdentifier_lower_iff.mp (hall _ hp)

theorem isLetters_of_mem_valueLetters (hp : p.lower ∈ valueLetters) : IsLetters p := by
  have hall : ∀ l ∈ valueLetters, l ∈ Literal.letterChoices := by decide
  exact Or.inr (hall _ hp)

theorem exists_mark (hq : q.head?.any isQuote = true) :
    ∃ c s, q = c :: s ∧ (c = '\'' ∨ c = '"') := by
  obtain ⟨d, hopen⟩ := exists_opening hq
  obtain ⟨s, hs, hm, -⟩ := exists_of_opening hopen
  exact ⟨d.mark, s, hs, hm⟩

/-- The literal with letters in front has the body of the one without them. -/
theorem ofText?_append (hp : p.lower ∈ valueLetters) (hq : q.head?.any isQuote = true) :
    Literal.ofText? (p ++ q) = (Literal.ofText? q).map fun l => { l with letters := p } := by
  obtain ⟨d, hopen⟩ := exists_opening hq
  obtain ⟨s, rfl, hm, -⟩ := exists_of_opening hopen
  unfold Literal.ofText?
  rw [lettersOf_append (isLetters_of_mem_valueLetters hp) hq, lettersOf_of_mark hm]
  simp only [List.drop_left, List.length_nil, List.drop_zero, hopen]
  split <;> rfl

theorem letters_of_ofText? (hq : q.head?.any isQuote = true) {l : Literal}
    (h : Literal.ofText? q = some l) : l.letters = [] := by
  obtain ⟨c, s, rfl, hm⟩ := exists_mark hq
  unfold Literal.ofText? at h
  simp only [lettersOf_of_mark hm] at h
  split at h
  · cases h
  · split at h
    · obtain rfl := Option.some.inj h
      rfl
    · cases h

/-- Letters that do not ask for a raw body do not change the value. -/
theorem unquote_append (hp : p.lower ∈ valueLetters) (hraw : 'r' ∉ p.lower)
    (hq : q.head?.any isQuote = true) : unquote (p ++ q) = unquote q := by
  have hformatted : ∀ l ∈ valueLetters, l.contains 'f' = false := by decide
  rw [unquote, unquote, ofText?_append hp hq]
  cases hl : Literal.ofText? q with
  | none => rfl
  | some l =>
    have hnone := letters_of_ofText? hq hl
    change Literal.value { l with letters := p } = Literal.value l
    rw [Literal.value, Literal.value, Literal.isFormatted, Literal.isRaw, Literal.isFormatted,
      Literal.isRaw, hnone]
    dsimp only
    rw [hformatted _ hp, List.contains_eq_mem, decide_eq_false hraw]
    rfl

/-- A literal on one line is a string of the script, letters apart. -/
theorem isClosed_of_unquote (hp : p.lower ∈ valueLetters) (hq : q.head?.any isQuote = true)
    (hline : '\n' ∉ q) {t : Text} (hvalue : unquote (p ++ q) = .ok t) : IsClosed q := by
  obtain ⟨d, hopen⟩ := exists_opening hq
  have hliteral : Literal.ofText? q ≠ none := by
    intro hnone
    rw [unquote, ofText?_append hp hq, hnone] at hvalue
    cases hvalue
  have hfeed : escapedLineFeed ∉ units q := fun h =>
    hline (mem_of_mem_units h (List.mem_cons_of_mem _ List.mem_cons_self))
  exact (isClosed_iff hopen).mpr ⟨((ofText?_ne_none_iff hopen).mp hliteral).1, hfeed⟩

end Letters

/-! ## The script -/

section Script

variable {st : Settings} {p q : Text}

theorem newlines_identifier (hp : IsIdentifier p) : Text.newlines p = 0 :=
  List.count_eq_zero_of_not_mem fun h => absurd (hp.2 _ h) (by decide)

theorem scanScript_letters (hp : IsIdentifier p) (hq : q.head?.any isQuote = true)
    (hclosed : IsClosed q) :
    scanScript (p ++ q) = .ok [⟨.reference, p, 0, 1⟩, ⟨.string, q, p.utf8Size, 1⟩] := by
  obtain ⟨d, hopen⟩ := exists_opening hq
  obtain ⟨s, hs, hm, -⟩ := exists_of_opening hopen
  have hmark : q.head?.all (fun c => !isNameChar c) = true := by
    rw [hs, List.head?_cons, Option.all_some]
    rcases hm with h | h <;> rw [h] <;> rfl
  have hne : q ≠ [] := by
    rw [hs]
    exact List.cons_ne_nil _ _
  rw [scanScript_eq_ok_iff, scriptScan_token hp.ne_nil (next_reference hp hmark) (by decide),
    scriptScan_single hne (by decide) (next_of_isClosed hopen hclosed), newlines_identifier hp,
    Nat.zero_add, Nat.add_zero]
  rfl

theorem scanScript_identifier (hp : IsIdentifier p) :
    scanScript p = .ok [⟨.reference, p, 0, 1⟩] := by
  have hnext := @next_reference p hp [] rfl
  rw [List.append_nil] at hnext
  rw [scanScript_eq_ok_iff, scriptScan_single hp.ne_nil (by decide) hnext]

section Tokens

variable {define : Nat → Text → Except CompileError Bytes}

theorem step_identifier (hp : IsIdentifier p) (scope : Scope) (start line : Nat) :
    scope.step st define ⟨.reference, p, start, line⟩ =
      match scope.symbols.lookup p with
      | some bs => .ok (scope, bs)
      | none => .error ⟨line, .undefinedVariable p⟩ := by
  change (match scope.symbols.lookup (p.dropWhile (· == '$')) with
    | some bs => Except.ok (scope, bs)
    | none => Except.error ⟨line, .undefinedVariable (p.dropWhile (· == '$'))⟩ :
      Except CompileError (Scope × Bytes)) = _
  rw [hp.dropWhile_dollar]

/-- A name and a string give the bytes of the name and those of the string. -/
theorem exec_letters (hp : IsIdentifier p) (scope : Scope) (start : Nat) :
    (scope.exec st define [⟨.reference, p, 0, 1⟩, ⟨.string, q, start, 1⟩]).map Prod.snd =
      ((scope.exec st define [⟨.reference, p, 0, 1⟩]).map Prod.snd).bind fun v =>
        ((stringBytes st.encoding q).mapError (CompileError.mk 1)).map (v ++ ·) := by
  rw [Scope.exec_cons, Scope.exec_cons, step_identifier hp]
  cases scope.symbols.lookup p with
  | none => rfl
  | some v =>
    change ((scope.exec st define [_]).map fun r => (r.1, v ++ r.2)).map Prod.snd = _
    rw [Scope.exec_cons, Scope.step]
    dsimp only
    cases stringBytes st.encoding q with
    | error e => rfl
    | ok bs =>
      change Except.ok (v ++ (bs ++ [])) = Except.ok ((v ++ []) ++ bs)
      rw [List.append_nil, List.append_nil]

end Tokens

variable {s : Text} {x : Bytes} (hs : compile st s = .ok x) (hend : s = [] ∨ EndsLine s)

include hs hend

/-- A name after a script gives the bytes that the script binds to it. -/
theorem compile_append_identifier (hp : IsIdentifier p) :
    if p ∈ boundNames s then ∃ v, compile st (s ++ p) = .ok (x ++ v)
    else compile st (s ++ p) = .error ⟨1 + s.newlines, .undefinedVariable p⟩ := by
  obtain ⟨ts, after, hts, hafter, rfl⟩ := exists_exec_of_compile hs
  have hnames := mem_names_iff hts hafter p
  rw [compile_append_eq hend hts hafter, scanScript_identifier hp]
  change if _ then ∃ v, (((after.1.exec st _ [_]).map Prod.snd).mapError _).map _ = _
    else (((after.1.exec st _ [_]).map Prod.snd).mapError _).map _ = _
  rw [Scope.exec_cons, step_identifier hp]
  cases hlook : after.1.symbols.lookup p with
  | some v =>
    have hmem : p ∈ boundNames s := hnames.mp <| by
      by_contra hnot
      rw [Scope.names, ← lookup_eq_none_iff_not_mem, hlook] at hnot
      cases hnot
    rw [if_pos hmem]
    exact ⟨v ++ [], rfl⟩
  | none =>
    rw [if_neg (hnames.not.mp (lookup_eq_none_iff_not_mem.mp hlook))]
    rfl

/-- **Letters in front of a string** are read as a name, and the string after them as one of its
own. -/
theorem compile_append_letters (hp : IsIdentifier p) (hq : q.head?.any isQuote = true)
    (hclosed : IsClosed q) :
    compile st (s ++ (p ++ q)) = (compile st (s ++ p)).bind fun y =>
      ((compile st q).mapError (CompileError.shift s.newlines)).map (y ++ ·) := by
  obtain ⟨d, hopen⟩ := exists_opening hq
  have hne : q ≠ [] := by
    rintro rfl
    cases hq
  obtain ⟨ts, after, hts, hafter, rfl⟩ := exists_exec_of_compile hs
  have hstring : compile st q = (stringBytes st.encoding q).mapError (CompileError.mk 1) := by
    rw [compile, compileWithin_eq,
      runScript_single hne (by decide) (next_of_isClosed hopen hclosed)]
    exact map_snd_map (stringBytes st.encoding q) (CompileError.mk 1) _
  rw [compile_append_eq hend hts hafter, compile_append_eq hend hts hafter,
    scanScript_letters hp hq hclosed, scanScript_identifier hp, hstring]
  change (((after.1.exec st _ [_, _]).map Prod.snd).mapError _).map _ =
    ((((after.1.exec st _ [_]).map Prod.snd).mapError _).map _).bind _
  rw [exec_letters hp]
  cases (after.1.exec st _ [_]).map Prod.snd with
  | error e => rfl
  | ok v =>
    cases stringBytes st.encoding q with
    | error e => rfl
    | ok bs => exact congrArg Except.ok (List.append_assoc _ _ _).symm

/-- **Letters in front of a string are a name of their own.** Without a definition of that name the
script fails, although the text is a literal with a value. With one, the script goes on with the
bytes bound to the name and the bytes of the string without letters; so it gives the encoding of the
value exactly if these bytes make it up, which the string alone does if its body is not raw. -/
theorem compile_letters_string (hp : p.lower ∈ valueLetters) (hq : q.head?.any isQuote = true)
    (hline : '\n' ∉ q) {t : Text} (hvalue : unquote (p ++ q) = .ok t) {w : Bytes}
    (hencode : st.encoding.encode? t = some w) :
    (if p ∈ boundNames s then ∃ v, compile st (s ++ p) = .ok (x ++ v) ∧
        compile st (s ++ (p ++ q)) =
          ((compile st q).mapError (CompileError.shift s.newlines)).map (x ++ v ++ ·)
      else compile st (s ++ (p ++ q)) = .error ⟨1 + s.newlines, .undefinedVariable p⟩) ∧
    ('r' ∉ p.lower → compile st q = .ok w) ∧
    (compile st (s ++ (p ++ q)) = .ok (x ++ w) ↔
      ∃ v u, compile st (s ++ p) = .ok (x ++ v) ∧ compile st q = .ok u ∧ v ++ u = w) := by
  have hname := isIdentifier_of_mem_valueLetters hp
  have hclosed := isClosed_of_unquote hp hq hline hvalue
  have hwhole := compile_append_letters hs hend hname hq hclosed
  have hfirst := compile_append_identifier hs hend hname
  refine ⟨?_, fun hraw => ?_, ?_⟩
  · split
    · next hbound =>
      rw [if_pos hbound] at hfirst
      obtain ⟨v, hv⟩ := hfirst
      rw [hv] at hwhole
      exact ⟨v, hv, hwhole⟩
    · next hfree =>
      rw [if_neg hfree] at hfirst
      rw [hwhole, hfirst]
      rfl
  · obtain ⟨d, hopen⟩ := exists_opening hq
    rw [unquote_append hp hraw hq] at hvalue
    rw [compile_of_isClosed hopen hclosed st hvalue, hencode]
  · rw [hwhole]
    constructor
    · intro h
      obtain ⟨y, hy, h⟩ := exists_of_bind_eq_ok h
      obtain ⟨u, hu, h⟩ := exists_of_map_eq_ok h
      by_cases hbound : p ∈ boundNames s
      · rw [if_pos hbound] at hfirst
        obtain ⟨v, hv⟩ := hfirst
        obtain rfl := Except.ok.inj (hv.symm.trans hy)
        refine ⟨v, u, hv, mapError_eq_ok_iff.mp hu, ?_⟩
        exact List.append_cancel_left ((List.append_assoc x v u).symm.trans h)
      · rw [if_neg hbound, hy] at hfirst
        cases hfirst
    · rintro ⟨v, u, hv, hu, rfl⟩
      rw [hv, hu]
      exact congrArg Except.ok (List.append_assoc x v u)

end Script

/-- Two spellings of the letter `r`, of which the second is bound: the first one is undefined, and
the second gives its bytes. -/
theorem compile_letters_string_bound :
    compile {} ("$R=#01\n".toList ++ ("r".toList ++ "'x'".toList)) =
      .error ⟨2, .undefinedVariable "r".toList⟩ ∧
    compile {} ("$R=#01\n".toList ++ ("R".toList ++ "'x'".toList)) = .ok [0, 0, 0, 1, 120] := by
  have hs : compile {} "$R=#01\n".toList = .ok [] := by decide +kernel
  have hend : "$R=#01\n".toList = [] ∨ EndsLine "$R=#01\n".toList :=
    Or.inr ⟨"$R=#01".toList, by decide⟩
  have hsmall := (@compile_letters_string {} "r".toList "'x'".toList _ _ hs hend (by decide)
    (by decide) (by decide) "x".toList (by decide +kernel) [120] (by decide +kernel)).1
  have hlarge := (@compile_letters_string {} "R".toList "'x'".toList _ _ hs hend (by decide)
    (by decide) (by decide) "x".toList (by decide +kernel) [120] (by decide +kernel)).1
  rw [if_neg (by decide +kernel)] at hsmall
  rw [if_pos (by decide +kernel)] at hlarge
  obtain ⟨v, hv, hwhole⟩ := hlarge
  have hbytes : compile {} ("$R=#01\n".toList ++ "R".toList) = .ok [0, 0, 0, 1] := by
    decide +kernel
  obtain rfl : v = [0, 0, 0, 1] := Except.ok.inj (hv.symm.trans hbytes)
  have hstring : compile {} "'x'".toList = .ok [120] := by decide +kernel
  refine ⟨hsmall, hwhole.trans ?_⟩
  rw [hstring]
  rfl

/-- **A literal with letters need not compile** to the encoding of its value. -/
theorem not_compile_letters_string : ¬ ∀ (st : Settings) (s p q t : Text) (x w : Bytes),
    compile st s = .ok x → EndsLine s → p.lower ∈ valueLetters → q.head?.any isQuote = true →
      '\n' ∉ q → unquote (p ++ q) = .ok t → st.encoding.encode? t = some w →
        compile st (s ++ (p ++ q)) = .ok (x ++ w) := by
  intro h
  have hwrong := h {} "\n".toList "r".toList "'x'".toList "x".toList [] [120] (by decide +kernel)
    ⟨[], rfl⟩ (by decide) (by decide) (by decide) (by decide +kernel) (by decide +kernel)
  exact absurd hwrong (by decide +kernel)

end ByteScript
