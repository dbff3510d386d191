import ByteScript.Proofs.Script.Binding

/-!
# A script that fails

A script whose tokens are read up to one that fails goes on failing there, with the same error on the
same line, whatever is written below it. The whole script is scanned before any token is read, so
what follows must be free of lexical errors, and it may still close a string that was left open; but
such a string stands behind the token that fails, or is the one that fails because it is no literal.

* `scriptScan_isPrefix`: the first tokens of a script, if their strings are literals;
* `Scope.exec_append_error`: tokens behind one that fails;
* `unquote_ne_malformed_of_step`: a string that fails for another reason is a literal;
* `exists_step_of_compile`: the token that fails;
* **`compile_append_of_error`**: a script that fails, with anything below it.
-/

namespace ByteScript

/-! ## The first tokens -/

/-- **The first tokens of a script are cut off whatever follows it**, if a line ends between the two
and the strings among these tokens are literals. -/
theorem scriptScan_isPrefix {h r : Text} (hend : LineEndsBetween h r) {start line : Nat}
    {ts us ws : List (Token ScriptKind)} (hscan : scriptScan start line h = .ok ts)
    (hwhole : scriptScan start line (h ++ r) = .ok ws) (hus : us <+: ts)
    (hliteral : ∀ t ∈ us, t.kind = .string → unquote t.text ≠ .error .malformed) : us <+: ws := by
  induction hlen : h.length using Nat.strongRecOn generalizing h start line ts us ws with
  | ind m ih => ?_
  cases h with
  | nil =>
    rw [scriptScan_nil] at hscan
    obtain rfl := Except.ok.inj hscan
    rw [List.prefix_nil.mp hus]
    exact List.nil_prefix
  | cons c s =>
    by_cases hblank : isBlank c = true
    · -- blanks of the script may run on into what follows, so they are passed over one by one
      rw [scriptScan_blank hblank] at hscan
      rw [List.cons_append, scriptScan_blank hblank] at hwhole
      have hs : LineEndsBetween s r := hend.drop 1
      exact ih s.length (by rw [← hlen, List.length_cons]; omega) hs hscan hwhole hus hliteral rfl
    · obtain ⟨k, a, b, ts, hab, hne, -, hb, hts, rfl, hfirst⟩ :=
        exists_of_scriptScan_append hend (Bool.eq_false_iff.mpr hblank) hscan
      have hshort : b.length < m := hlen ▸ length_lt_of_eq_append hab hne
      by_cases hremoved : k = .blank ∨ k = .comment
      · have hkeep : ∀ vs, keepToken ⟨k, a, start, line⟩ vs = vs := by
          rcases hremoved with rfl | rfl <;> exact fun _ => rfl
        have hstring : k ≠ .string := by rcases hremoved with rfl | rfl <;> nofun
        rw [hfirst fun hk => absurd hk hstring] at hwhole
        obtain ⟨ws, hws, rfl⟩ := exists_of_map_eq_ok hwhole
        rw [hkeep] at hus ⊢
        exact ih b.length hshort hb hts hws hus hliteral rfl
      · rw [keepToken_eq (t := ⟨k, a, start, line⟩) (not_or.mp hremoved)] at hus hfirst
        rcases List.prefix_cons_iff.mp hus with rfl | ⟨vs, rfl, hvs⟩
        · exact List.nil_prefix
        · rw [hfirst (hliteral _ List.mem_cons_self)] at hwhole
          obtain ⟨ws, hws, rfl⟩ := exists_of_map_eq_ok hwhole
          have hrest := ih b.length hshort hb hts hws hvs
            (fun t ht => hliteral t (List.mem_cons_of_mem _ ht)) rfl
          exact (List.prefix_cons_inj _).mpr hrest

/-! ## The token that fails -/

section Failure

variable {st : Settings} {define : Nat → Text → Except CompileError Bytes} {scope : Scope}

/-- Tokens behind one that fails change nothing. -/
theorem Scope.exec_append_error {us vs : List (Token ScriptKind)} {t : Token ScriptKind}
    {q : Scope × Bytes} (hus : scope.exec st define us = .ok q) {e : CompileError}
    (ht : q.1.step st define t = .error e) :
    scope.exec st define (us ++ t :: vs) = .error e := by
  have hrest : q.1.exec st define (t :: vs) = .error e := by
    rw [Scope.exec_cons, ht]
    rfl
  rw [Scope.exec_append, hus]
  change (q.1.exec st define (t :: vs)).map _ = _
  rw [hrest]
  rfl

/-- A string that is no literal fails for that reason. -/
theorem unquote_ne_malformed_of_step {t : Token ScriptKind} {e : CompileError}
    (h : scope.step st define t = .error e) (he : e.fault ≠ .badString .malformed)
    (hkind : t.kind = .string) : unquote t.text ≠ .error .malformed := by
  intro hmalformed
  have hbytes : stringBytes st.encoding t.text = .error (.badString .malformed) := by
    rw [stringBytes, hmalformed]
  rw [Scope.step, hkind] at h
  obtain ⟨fault, hfault, rfl⟩ := exists_of_mapError_eq_error (map_eq_error_iff.mp h)
  exact he (Except.error.inj (hfault.symm.trans hbytes))

end Failure

/-! ## Scripts -/

section Script

variable {st : Settings} {s : Text} {e : CompileError} (h : compile st s = .error e)
  (hunexpected : ∀ text offset, e.fault ≠ .unexpected text offset)

include h hunexpected

/-- A script without a lexical error that fails has a token that does, behind tokens that are
read. -/
theorem exists_step_of_compile : ∃ us t vs q, scanScript s = .ok (us ++ t :: vs) ∧
    (Scope.root st).exec st (defineWithin st st.maxDepth) us = .ok q ∧
    q.1.step st (defineWithin st st.maxDepth) t = .error e := by
  rw [compile_eq] at h
  rcases bind_eq_error_iff.mp h with h | ⟨ts, hts, h⟩
  · obtain ⟨u, -, rfl⟩ := exists_of_mapError_eq_error h
    exact absurd rfl (hunexpected u.text u.offset)
  · obtain ⟨us, t, vs, q, rfl, hus, ht⟩ := exists_step_of_exec_eq_error (map_eq_error_iff.mp h)
    exact ⟨us, t, vs, q, hts, hus, ht⟩

/-- **A script that fails keeps its error**, whatever is written below it: if the error is neither
lexical nor that of a string that is no literal, and the longer script has no lexical error, then the
longer script has the same error on the same line. -/
theorem compile_append_of_error (hmalformed : e.fault ≠ .badString .malformed) {t : Text}
    {ws : List (Token ScriptKind)} (hscan : scanScript (s ++ '\n' :: t) = .ok ws) :
    compile st (s ++ '\n' :: t) = .error e := by
  obtain ⟨us, u, vs, q, hts, hus, hu⟩ := exists_step_of_compile h hunexpected
  have hfirst : us ++ [u] <+: ws := by
    refine scriptScan_isPrefix (.lineFeed s t) (scanScript_eq_ok_iff.mp hts)
      (scanScript_eq_ok_iff.mp hscan) ⟨vs, by simp⟩ fun v hv hkind => ?_
    rcases List.mem_append.mp hv with hv | hv
    · obtain ⟨x, hx⟩ := exists_unquote_of_exec hus hv hkind
      rw [hx]
      nofun
    · rw [List.mem_singleton.mp hv] at hkind ⊢
      exact unquote_ne_malformed_of_step hu hmalformed hkind
  obtain ⟨xs, rfl⟩ := hfirst
  rw [List.append_assoc, List.singleton_append] at hscan
  rw [compile_eq, hscan]
  change ((Scope.root st).exec st _ (us ++ u :: xs)).map _ = _
  rw [Scope.exec_append_error hus hu]
  rfl

end Script

/-- An error in a definition, and a string behind it that is closed further down. -/
theorem compile_append_of_error_open :
    compile {} "$A=[W] +1\n'''".toList = .error ⟨1, .unknownPad "w".toList⟩ ∧
      compile {} ("$A=[W] +1\n'''".toList ++ '\n' :: "''' @W=2".toList) =
        .error ⟨1, .unknownPad "w".toList⟩ := by
  have hshort : compile {} "$A=[W] +1\n'''".toList = .error ⟨1, .unknownPad "w".toList⟩ := by
    decide +kernel
  obtain ⟨ws, hws⟩ : ∃ ws, scanScript ("$A=[W] +1\n'''".toList ++ '\n' :: "''' @W=2".toList) =
    .ok ws := exists_of_isOk (by decide +kernel)
  exact ⟨hshort, compile_append_of_error hshort nofun nofun hws⟩

end ByteScript
