import ByteScript.Proofs.Script.Binding

/-!
# A script and what follows it

A script that compiles and ends with a line feed is read first, whatever script follows it: the
tokens after it are read in the scope that it leaves, on the lines below it. A definition that
follows it starts from the root scope all the same, so its value does not depend on the script.

* `compile_append`: a script after one that compiles;
* `scriptScan_definition`, `exec_definition`: a definition and a reference to it;
* `defineWithin_eq`: the value of a definition from its right-hand side;
* **`compile_definition`**: the value of a definition is its right-hand side as a script of its own.
-/

namespace ByteScript

variable {st : Settings}

/-- **A script after one that compiles** is read in the scope that the first one leaves. -/
theorem compile_append {p : Text} (hend : p = [] ∨ EndsLine p) {ts : List (Token ScriptKind)}
    (hts : scanScript p = .ok ts) {q : Scope × Bytes}
    (hq : (Scope.root st).exec st (defineWithin st st.maxDepth) ts = .ok q) (s : Text) :
    compile st (p ++ s) =
      ((scriptScan (0 + p.utf8Size) (1 + p.newlines) s).mapError fun e =>
        ⟨e.line, .unexpected e.text e.offset⟩).bind fun us =>
          (q.1.exec st (defineWithin st st.maxDepth) us).map fun r => q.2 ++ r.2 := by
  have hvalue : ∀ t ∈ ts, t.kind = .string → ∃ v, unquote t.text = .ok v :=
    fun t ht hkind => exists_unquote_of_exec hq ht hkind
  have hscan := scriptScan_append (.of_endsLine hend s) (scanScript_eq_ok_iff.mp hts) hvalue
  rw [compile_eq, scanScript, Table.scan]
  unfold scriptScan at hscan ⊢
  rw [hscan]
  cases scriptTable.scanFrom [.blank, .comment] true (0 + p.utf8Size) (1 + p.newlines) s with
  | error e => rfl
  | ok us =>
    change ((Scope.root st).exec st _ (ts ++ us)).map _ = (q.1.exec st _ us).map _
    rw [Scope.exec_append, hq]
    change ((q.1.exec st _ us).map _).map _ = _
    cases q.1.exec st (defineWithin st st.maxDepth) us <;> rfl

/-! ## A definition and a reference to it -/

section Definition

variable {name value : Text}

theorem scriptScan_definition (hname : IsIdentifier name) (hvalue : '\n' ∉ value)
    (start line : Nat) : ∃ t : Token ScriptKind, t.piece = (.reference, name) ∧
      scriptScan start line ('$' :: name ++ '=' :: value ++ '\n' :: name) =
        .ok [⟨.definition, '$' :: (name ++ '=' :: value), start, line⟩, t] := by
  have hfirst := (isLexeme_definition hname hvalue).next name
  have hlast : scriptTable.next name = (.reference, name.length) := by
    have := @next_reference name hname [] rfl
    rwa [List.append_nil] at this
  let before : Text := '$' :: (name ++ '=' :: value)
  let t : Token ScriptKind := ⟨.reference, name, start + before.utf8Size + Text.utf8Size ['\n'],
    line + before.newlines + Text.newlines ['\n']⟩
  refine ⟨t, rfl, ?_⟩
  rw [List.cons_append, scriptScan_token (List.cons_ne_nil _ _) hfirst (by decide),
    scriptScan_blank (by decide), scriptScan_single hname.ne_nil (by decide) hlast]
  rfl

/-- A definition and a reference to it give the value of the definition. -/
theorem exec_definition {define : Nat → Text → Except CompileError Bytes}
    (hname : IsIdentifier name) (scope : Scope) (start line : Nat) {t : Token ScriptKind}
    (ht : t.piece = (.reference, name)) :
    (scope.exec st define [⟨.definition, '$' :: (name ++ '=' :: value), start, line⟩, t]).map
      Prod.snd = define line value := by
  rw [Scope.exec_cons, Scope.step, assignment_eq hname]
  cases define line value with
  | error e => rfl
  | ok bs =>
    let bound : Scope := { scope with symbols := (name, bs) :: scope.symbols }
    have hlook : bound.symbols.lookup (name.dropWhile (· == '$')) = some bs := by
      rw [hname.dropWhile_dollar]
      exact List.lookup_cons_self
    have hreference : bound.exec st define [t] = .ok (bound, bs) :=
      Executes.reference hlook [t] (congrArg (fun p => [p]) ht)
    change ((bound.exec st define [t]).map _).map _ = _
    rw [hreference]
    rfl

end Definition

/-- The value of a definition from the script on its right-hand side, one level deeper. -/
theorem defineWithin_eq (hdepth : 1 ≤ st.maxDepth) (line : Nat) (value : Text) :
    defineWithin st st.maxDepth line value =
      (compile { st with maxDepth := st.maxDepth - 1 } value).mapError fun e =>
        (e.withLimit st.maxDepth).shift (line - 1) := by
  obtain ⟨depth, hd⟩ : ∃ d, st.maxDepth = d + 1 := ⟨st.maxDepth - 1, by omega⟩
  have hright : compileWithin st depth value =
      (compile { st with maxDepth := depth } value).mapError (CompileError.withLimit st.maxDepth) :=
    @compileWithin_maxDepth { st with maxDepth := depth } st.maxDepth depth value
  rw [hd, defineWithin, hright, mapError_mapError, hd, Nat.add_sub_cancel]

/-- **The value of a definition** is what its right-hand side compiles to as a script of its own,
one level deeper, whatever script stands before it: that script gives its own bytes and no more, and
an error of the right-hand side is one on the line of the definition. -/
theorem compile_definition {p : Text} {x : Bytes} (hp : compile st p = .ok x)
    (hend : p = [] ∨ EndsLine p) {name value : Text} (hname : IsIdentifier name)
    (hnewline : '\n' ∉ value) (hdepth : 1 ≤ st.maxDepth) :
    compile st (p ++ ('$' :: name ++ '=' :: value ++ '\n' :: name)) =
      match compile { st with maxDepth := st.maxDepth - 1 } value with
      | .ok y => .ok (x ++ y)
      | .error e => .error ⟨1 + p.newlines, e.fault.withLimit st.maxDepth⟩ := by
  rw [compile_eq] at hp
  obtain ⟨ts, hts, hp⟩ := exists_of_bind_eq_ok hp
  obtain ⟨q, hq, rfl⟩ := exists_of_map_eq_ok hp
  obtain ⟨t, ht, hscan⟩ :=
    scriptScan_definition hname hnewline (0 + p.utf8Size) (1 + p.newlines)
  have hsplit : ∀ r : Except CompileError (Scope × Bytes),
      (r.map fun r => q.2 ++ r.2) = (r.map Prod.snd).map (q.2 ++ ·) := by
    intro r
    cases r <;> rfl
  rw [compile_append hend hts hq, hscan]
  change (q.1.exec st (defineWithin st st.maxDepth) _).map _ = _
  rw [hsplit, exec_definition hname q.1 _ _ ht, defineWithin_eq hdepth, Nat.add_sub_cancel_left]
  cases hc : compile { st with maxDepth := st.maxDepth - 1 } value with
  | ok y => rfl
  | error e =>
    have hline : e.line = 1 := line_eq_one_of_compileWithin hnewline hc
    change Except.error (CompileError.mk (e.line + p.newlines) _) = _
    rw [hline]
    rfl

/-- A script that sets a width, binds a name to it and binds another to bytes. -/
def widePrefix : Text := "@W=2 [W] +1\n$A=#0102\n[8] A\n".toList

/-- Settings under which no definition holds another. -/
def shallow : Settings := { maxDepth := 1 }

/-- The width that is set in front of a definition has no effect on it, and a definition in it is
nested too deep under the limit of the whole. -/
theorem compile_definition_shallow :
    compile shallow (widePrefix ++
      ('$' :: "B".toList ++ '=' :: "#07 'x'".toList ++ '\n' :: "B".toList)) =
        .ok ([0, 1, 0, 0, 1, 2] ++ [0, 0, 0, 7, 120]) ∧
    compile shallow (widePrefix ++
      ('$' :: "B".toList ++ '=' :: "$C=+1".toList ++ '\n' :: "B".toList)) =
        .error ⟨1 + 3, .depthLimit 1⟩ := by
  have hp : compile shallow widePrefix = .ok [0, 1, 0, 0, 1, 2] := by decide +kernel
  have hend : widePrefix = [] ∨ EndsLine widePrefix := Or.inr ⟨widePrefix.dropLast, by decide⟩
  have hright : compile { shallow with maxDepth := shallow.maxDepth - 1 } "#07 'x'".toList =
      .ok [0, 0, 0, 7, 120] := by decide +kernel
  have hdeep : compile { shallow with maxDepth := shallow.maxDepth - 1 } "$C=+1".toList =
      .error ⟨1, .depthLimit 0⟩ := by decide +kernel
  constructor
  · rw [compile_definition hp hend (by decide) (by decide) (by decide), hright]
  · rw [compile_definition hp hend (by decide) (by decide) (by decide), hdeep]
    rfl

end ByteScript
