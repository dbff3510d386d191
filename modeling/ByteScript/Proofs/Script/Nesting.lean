import ByteScript.Proofs.Script.Concatenation
import ByteScript.Proofs.Script.Failure

/-!
# The nesting of definitions

A definition stands on one line, and so do all definitions in it. Each of them takes its dollar sign
away from the line, so a line with few of them cannot nest deep. A script for which the depth is
enough compiles alike, or fails alike, with more of it.

* `exists_line`: the line that a piece of a text stands on;
* `CompileError.IsDepthLimit`: the errors of definitions that nest too deep;
* `sameUnless_step`, `sameUnless_exec`, `sameUnless_runScript`: readers whose definitions are read
  to another depth; **`sameUnless_compileWithin`**, **`sameUnless_compile`**: scripts;
* `exists_of_cutsOff_definition`, `count_assignment_lt`: the dollar signs of a definition;
* **`exists_line_of_compileWithin`**: the line of a script whose definitions nest too deep.
-/

namespace ByteScript

/-! ## Lines -/

theorem splitOn_lineFeed (s : Text) : ('\n' :: s).splitOn '\n' = [] :: s.splitOn '\n' := by
  rw [List.splitOn_eq_splitOnP, List.splitOnP_cons_eq_if_modifyHead, if_pos (by decide),
    List.splitOn_eq_splitOnP]

theorem splitOn_cons {c : Char} (hc : c ≠ '\n') (s : Text) :
    (c :: s).splitOn '\n' = (s.splitOn '\n').modifyHead (c :: ·) := by
  rw [List.splitOn_eq_splitOnP, List.splitOnP_cons_eq_if_modifyHead, if_neg (by simpa using hc),
    List.splitOn_eq_splitOnP]

/-- A text within a line begins the first line of any text that starts with it. -/
theorem exists_first_line {piece : Text} (hpiece : '\n' ∉ piece) (b : Text) :
    ∃ l, ((piece ++ b).splitOn '\n')[0]? = some l ∧ piece <+: l := by
  induction piece with
  | nil =>
    obtain ⟨l, ls, hls⟩ := List.exists_cons_of_ne_nil (List.splitOn_ne_nil '\n' b)
    exact ⟨l, by rw [List.nil_append, hls]; rfl, List.nil_prefix⟩
  | cons c piece ih =>
    obtain ⟨hc, hpiece⟩ := not_or.mp (List.mem_cons.not.mp hpiece)
    obtain ⟨l, hl, hstart⟩ := ih hpiece
    refine ⟨c :: l, ?_, List.cons_prefix_cons.mpr ⟨rfl, hstart⟩⟩
    rw [List.cons_append, splitOn_cons (Ne.symm hc), List.getElem?_modifyHead, if_pos rfl, hl]
    rfl

/-- **The line that a piece of a text stands on**: as many line feeds stand in front of it as there
are lines before. -/
theorem exists_line {piece : Text} (hpiece : '\n' ∉ piece) (a b : Text) :
    ∃ l, ((a ++ (piece ++ b)).splitOn '\n')[Text.newlines a]? = some l ∧ piece <:+: l := by
  induction a with
  | nil =>
    obtain ⟨l, hl, hstart⟩ := exists_first_line hpiece b
    exact ⟨l, hl, hstart.isInfix⟩
  | cons c a ih =>
    obtain ⟨l, hl, hinside⟩ := ih
    by_cases hc : c = '\n'
    · refine ⟨l, ?_, hinside⟩
      rw [hc, List.cons_append, splitOn_lineFeed, Text.newlines, List.count_cons_self,
        List.getElem?_cons_succ]
      exact hl
    · have hcount : Text.newlines (c :: a) = Text.newlines a := List.count_cons_of_ne hc
      rw [hcount, List.cons_append, splitOn_cons hc, List.getElem?_modifyHead, hl]
      split
      · exact ⟨c :: l, rfl, hinside.trans (List.suffix_cons c l).isInfix⟩
      · exact ⟨l, rfl, hinside⟩

/-! ## Errors -/

/-- The fault is that definitions nest too deep. -/
def CompileFault.IsDepthLimit : CompileFault → Prop
  | .depthLimit _ => True
  | _ => False

/-- The error is that definitions nest too deep. -/
def CompileError.IsDepthLimit (e : CompileError) : Prop := e.fault.IsDepthLimit

theorem CompileFault.IsLocal.not_isDepthLimit {fault : CompileFault} (h : fault.IsLocal) :
    ¬ fault.IsDepthLimit := by
  cases fault with
  | depthLimit limit => exact h.elim
  | _ => exact id

theorem CompileFault.withLimit_eq {fault : CompileFault} (h : ¬ fault.IsDepthLimit) (limit : Nat) :
    fault.withLimit limit = fault := by
  cases fault with
  | depthLimit n => exact absurd trivial h
  | _ => rfl

theorem CompileError.IsDepthLimit.withLimit {e : CompileError} (h : e.IsDepthLimit) (limit : Nat) :
    (e.withLimit limit).fault = .depthLimit limit := by
  obtain ⟨line, fault⟩ := e
  cases fault with
  | depthLimit n => rfl
  | _ => exact h.elim

variable {st : Settings} {define define' : Nat → Text → Except CompileError Bytes}

theorem not_isDepthLimit_of_scanScript {s : Text} {e : CompileError} (h : scanScript s = .error e) :
    ¬ e.IsDepthLimit := by
  obtain ⟨u, -, rfl⟩ := exists_of_mapError_eq_error h
  exact id

theorem not_isDepthLimit_of_step {scope : Scope} {t : Token ScriptKind} {e : CompileError}
    (h : scope.step st define t = .error e) (hkind : t.kind ≠ .definition) : ¬ e.IsDepthLimit := by
  obtain ⟨-, hlocal | ⟨-, hfault, -⟩⟩ := error_of_step h hkind
  · exact hlocal.not_isDepthLimit
  · rw [CompileError.IsDepthLimit, hfault]
    exact id

/-! ## More depth -/

section Depth

/-- Two ways to read definitions agree where the first one does not find them too deep. -/
abbrev SameDefinitions (define define' : Nat → Text → Except CompileError Bytes) : Prop :=
  ∀ line s, SameUnless CompileError.IsDepthLimit (define line s) (define' line s)

theorem sameUnless_step (hdefine : SameDefinitions define define') (scope : Scope)
    (t : Token ScriptKind) :
    SameUnless CompileError.IsDepthLimit (scope.step st define t) (scope.step st define' t) := by
  by_cases hkind : t.kind = .definition
  · rw [Scope.step, Scope.step, hkind]
    exact (hdefine t.line _).bind fun bs => .refl _
  · rw [step_congr hkind rfl]
    exact .refl _

theorem sameUnless_exec (hdefine : SameDefinitions define define') (scope : Scope)
    (ts : List (Token ScriptKind)) :
    SameUnless CompileError.IsDepthLimit (scope.exec st define ts) (scope.exec st define' ts) := by
  induction ts generalizing scope with
  | nil => exact .refl _
  | cons t ts ih =>
    rw [Scope.exec_cons, Scope.exec_cons]
    exact (sameUnless_step hdefine scope t).bind fun p => (ih p.1).map _

theorem sameUnless_runScript (hdefine : SameDefinitions define define') (s : Text) :
    SameUnless CompileError.IsDepthLimit (runScript st define s) (runScript st define' s) := by
  rw [runScript_eq_exec, runScript_eq_exec]
  exact (SameUnless.refl _).bind fun ts => (sameUnless_exec hdefine _ ts).map _

theorem sameUnless_compileWithin_succ (depth : Nat) (s : Text) :
    SameUnless CompileError.IsDepthLimit (compileWithin st depth s)
      (compileWithin st (depth + 1) s) := by
  induction depth generalizing s with
  | zero =>
    rw [compileWithin_eq, compileWithin_eq]
    exact sameUnless_runScript (fun _ _ => .of_error trivial _) s
  | succ depth ih =>
    rw [compileWithin_eq, compileWithin_eq]
    refine sameUnless_runScript (fun line r => ?_) s
    rw [defineWithin, defineWithin]
    exact (ih r).mapError (fun _ he => he) fun _ _ => rfl

/-- **A script for which a depth is enough** does not show what lies below it. -/
theorem sameUnless_compileWithin {d d' : Nat} (h : d ≤ d') (s : Text) :
    SameUnless CompileError.IsDepthLimit (compileWithin st d s) (compileWithin st d' s) :=
  .of_le (fun depth => sameUnless_compileWithin_succ depth s) h

theorem compile_maxDepth (limit : Nat) (s : Text) :
    compile { st with maxDepth := limit } s =
      (compileWithin st limit s).mapError (CompileError.withLimit limit) :=
  compileWithin_maxDepth limit s

/-- The same for the limit of the settings, which shows in errors of this kind only. -/
theorem sameUnless_compile {d d' : Nat} (h : d ≤ d') (s : Text) :
    SameUnless CompileError.IsDepthLimit (compile { st with maxDepth := d } s)
      (compile { st with maxDepth := d' } s) := by
  rw [compile_maxDepth, compile_maxDepth d']
  refine (sameUnless_compileWithin h s).mapError (fun e he => ?_) fun e he => ?_
  · rw [CompileError.IsDepthLimit, he.withLimit]
    trivial
  · rw [CompileError.withLimit, CompileError.withLimit, CompileFault.withLimit_eq he,
      CompileFault.withLimit_eq he]

end Depth

/-! ## The dollar signs of a line -/

/-- A definition is within a line and starts with a dollar sign. -/
theorem exists_of_cutsOff_definition {a b : Text} (h : scriptTable.CutsOff .definition a b) :
    ∃ s, a = '$' :: s ∧ '\n' ∉ a := by
  have hmatch : Pattern.definition (a ++ b) = some a.length :=
    match_of_cutsOff (List.mem_iff_getElem?.mpr ⟨0, rfl⟩) h
  have hline := not_mem_take fits_definition inLine_definition hmatch
  rw [List.take_left' rfl] at hline
  obtain ⟨c, s, rfl⟩ := List.exists_cons_of_ne_nil h.ne_nil
  rw [List.cons_append, Pattern.definition.eq_def] at hmatch
  split at hmatch
  · rename_i hcons
    obtain ⟨rfl, -⟩ := List.cons.inj hcons
    exact ⟨s, rfl, hline⟩
  · cases hmatch

/-- The right-hand side of a definition has a dollar sign less than the definition. -/
theorem count_assignment_lt (s : Text) :
    (assignment ('$' :: s)).2.count '$' < List.count '$' ('$' :: s) := by
  have hle := (assignment_suffix ('$' :: s)).isInfix.count_le '$'
  rw [List.count_cons_self]
  exact Nat.lt_succ_of_le hle

/-- A script whose definitions nest too deep has a definition that does. -/
theorem exists_definition_of_runScript {s : Text} {e : CompileError}
    (h : runScript st define s = .error e) (hdepth : e.IsDepthLimit) :
    ∃ a piece b : Text, s = a ++ (piece ++ b) ∧ '\n' ∉ piece ∧
      (assignment piece).2.count '$' < piece.count '$' ∧
      define (1 + a.newlines) (assignment piece).2 = .error e := by
  rw [runScript_eq_exec] at h
  rcases bind_eq_error_iff.mp h with hscan | ⟨ts, hts, h⟩
  · exact absurd hdepth (not_isDepthLimit_of_scanScript hscan)
  · obtain ⟨us, t, vs, q, rfl, -, hstep⟩ := exists_step_of_exec_eq_error (map_eq_error_iff.mp h)
    have hkind : t.kind = .definition :=
      by_contra fun hkind => not_isDepthLimit_of_step hstep hkind hdepth
    obtain ⟨a, b, hs, -, hline, hcut⟩ := Table.exists_of_mem_scanFrom
      (mapError_eq_ok_iff.mp hts) (List.mem_append_right us List.mem_cons_self)
    rw [hkind] at hcut
    obtain ⟨r, hr, hfeed⟩ := exists_of_cutsOff_definition hcut
    refine ⟨a, t.text, b, hs, hfeed, ?_, hline ▸ define_of_step hkind hstep⟩
    rw [hr]
    exact count_assignment_lt r

/-- **A script whose definitions nest too deep** does so on the line of the error, and this line has
more dollar signs than the depth. -/
theorem exists_line_of_compileWithin {depth : Nat} {s : Text} {e : CompileError}
    (h : compileWithin st depth s = .error e) (hdepth : e.IsDepthLimit) :
    ∃ i l, e.line = i + 1 ∧ (s.splitOn '\n')[i]? = some l ∧ depth < l.count '$' := by
  rw [compileWithin_eq] at h
  obtain ⟨a, piece, b, rfl, hfeed, hcount, hdefine⟩ := exists_definition_of_runScript h hdepth
  have hright : e.line = a.newlines + 1 ∧ depth ≤ (assignment piece).2.count '$' := by
    cases depth with
    | zero =>
      obtain rfl := Except.error.inj hdefine
      exact ⟨Nat.add_comm _ _, Nat.zero_le _⟩
    | succ depth =>
      obtain ⟨d, hd, rfl⟩ := exists_of_mapError_eq_error hdefine
      -- the value of a definition is one line, so an error in it is on the first one
      have hline : '\n' ∉ (assignment piece).2 := fun hmem => hfeed (mem_of_mem_assignment hmem)
      obtain ⟨i, r, hi, hr, hlt⟩ := exists_line_of_compileWithin hd hdepth
      have hone := line_eq_one_of_compileWithin hline hd
      rw [List.splitOn_eq_singleton hline] at hr
      obtain rfl : i = 0 := by omega
      obtain rfl := Option.some.inj hr
      refine ⟨?_, hlt⟩
      change d.line + (1 + a.newlines - 1) = a.newlines + 1
      omega
  obtain ⟨l, hl, hinside⟩ := exists_line hfeed a b
  have hlt := Nat.lt_of_le_of_lt hright.2 hcount
  exact ⟨a.newlines, l, hright.1, hl, Nat.lt_of_lt_of_le hlt (hinside.count_le '$')⟩

end ByteScript
