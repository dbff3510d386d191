import ByteScript.Proofs.Scan.Place
import ByteScript.Proofs.Script.Execution

/-!
# How a script fails

A token that is no definition fails on its own line, with a fault that lies in its text and the
scope, whatever the depth that definitions may have. So a script compiles alike under every limit
that it does not reach, and a script of one line fails on that line.

* `CompileFault.IsLocal`: the faults that involve neither names nor depths;
  `isLocal_of_integerBytes` and its siblings: those of literals and directives;
* `FaultAt`, `faultAt_of_step`: the ways in which a token that is no definition fails;
* `step_congr`, `error_of_step`: what such a token depends on;
* **`compileWithin_maxDepth`**: a script under another limit;
* **`line_eq_one_of_compileWithin`**: a script of one line.
-/

namespace ByteScript

/-! ## Faults -/

/-- The fault involves no name and no depth. -/
def CompileFault.IsLocal : CompileFault → Prop
  | .undefinedVariable _ | .depthLimit _ => False
  | _ => True

/-- The fault under another limit. -/
def CompileFault.withLimit (limit : Nat) : CompileFault → CompileFault
  | .depthLimit _ => .depthLimit limit
  | fault => fault

/-- The error under another limit. -/
def CompileError.withLimit (limit : Nat) (e : CompileError) : CompileError :=
  { e with fault := e.fault.withLimit limit }

theorem CompileFault.IsLocal.withLimit {fault : CompileFault} (h : fault.IsLocal) (limit : Nat) :
    fault.withLimit limit = fault := by
  cases fault with
  | depthLimit n => exact h.elim
  | _ => rfl

section Literals

variable {pad : Option Nat} {text : Text} {fault : CompileFault}

theorem isLocal_of_integerBytes {radix : Nat} {digits : Text} {negative : Bool}
    (h : integerBytes pad text radix digits negative = .error fault) : fault.IsLocal := by
  unfold integerBytes at h
  split at h
  · obtain rfl := Except.error.inj h
    trivial
  · split at h
    · cases h
    · obtain rfl := Except.error.inj h
      trivial

theorem isLocal_of_floatBytes (h : floatBytes pad text = .error fault) : fault.IsLocal := by
  unfold floatBytes at h
  dsimp only at h
  split at h
  · cases h
  · obtain rfl := Except.error.inj h
    trivial

theorem isLocal_of_stringBytes {encoding : Encoding}
    (h : stringBytes encoding text = .error fault) : fault.IsLocal := by
  unfold stringBytes at h
  split at h
  · obtain rfl := Except.error.inj h
    trivial
  · split at h
    · cases h
    · obtain rfl := Except.error.inj h
      trivial

theorem isLocal_of_padWidth {scope : Scope} (h : scope.padWidth text = .error fault) :
    fault.IsLocal := by
  unfold Scope.padWidth at h
  dsimp only at h
  split at h
  · cases h
  · split at h
    · split at h
      · cases h
      · obtain rfl := Except.error.inj h
        trivial
    · split at h
      · cases h
      · obtain rfl := Except.error.inj h
        trivial

end Literals

/-! ## Tokens -/

section Tokens

variable {st st' : Settings} {define define' : Nat → Text → Except CompileError Bytes}
  {scope : Scope} {t : Token ScriptKind}

/-- A token that is no definition has a meaning without the values of definitions. -/
theorem step_congr (hkind : t.kind ≠ .definition) (hencoding : st.encoding = st'.encoding) :
    scope.step st define t = scope.step st' define' t := by
  rw [Scope.step, Scope.step, hencoding]
  cases hk : t.kind <;> first | rfl | exact absurd hk hkind

/-- The ways in which a token that is no definition fails. -/
inductive FaultAt (st : Settings) (scope : Scope) (t : Token ScriptKind) : CompileFault → Prop where
  /-- The right-hand side of a definition of a width is no size. -/
  | size (hkind : t.kind = .sizeDefinition) :
      FaultAt st scope t (.invalidNumber (assignment t.text).2)
  /-- A directive names no width. -/
  | pad {fault : CompileFault} (hkind : t.kind = .pad)
      (h : scope.padWidth t.text = .error fault) : FaultAt st scope t fault
  /-- An integer is too large, at all or for its width. -/
  | integer {fault : CompileFault} {radix : Nat} {digits : Text} {negative : Bool}
      (hkind : t.kind ∈ [ScriptKind.integer, .hex, .binary])
      (h : integerBytes scope.pad t.text radix digits negative = .error fault) :
      FaultAt st scope t fault
  | float {fault : CompileFault} (hkind : t.kind = .float)
      (h : floatBytes scope.pad t.text = .error fault) : FaultAt st scope t fault
  | string {fault : CompileFault} (hkind : t.kind = .string)
      (h : stringBytes st.encoding t.text = .error fault) : FaultAt st scope t fault
  /-- A name is not bound. -/
  | reference (hkind : t.kind = .reference)
      (h : scope.symbols.lookup (t.text.dropWhile (· == '$')) = none) :
      FaultAt st scope t (.undefinedVariable (t.text.dropWhile (· == '$')))
  /-- A token has no meaning. -/
  | stray (hkind : t.kind ∈ [ScriptKind.mismatch, .blank, .comment]) :
      FaultAt st scope t (.strayToken t.kind t.text)

/-- **A token that is no definition fails on its line**, in one of these ways. -/
theorem faultAt_of_step {e : CompileError} (h : scope.step st define t = .error e)
    (hkind : t.kind ≠ .definition) : e.line = t.line ∧ FaultAt st scope t e.fault := by
  have literal : ∀ {r : Except CompileFault Bytes},
      (∀ fault, r = .error fault → FaultAt st scope t fault) →
      (r.mapError (CompileError.mk t.line)).map (fun bs => (scope, bs)) = .error e →
        e.line = t.line ∧ FaultAt st scope t e.fault := by
    intro r hr hmap
    obtain ⟨fault, hfault, rfl⟩ := exists_of_mapError_eq_error (map_eq_error_iff.mp hmap)
    exact ⟨rfl, hr fault hfault⟩
  have integer : t.kind ∈ [ScriptKind.integer, .hex, .binary] →
      ∀ {radix digits negative fault},
        integerBytes scope.pad t.text radix digits negative = .error fault →
          FaultAt st scope t fault := fun hk _ _ _ _ hfault => .integer hk hfault
  have stray : t.kind ∈ [ScriptKind.mismatch, .blank, .comment] →
      e = ⟨t.line, .strayToken t.kind t.text⟩ → e.line = t.line ∧ FaultAt st scope t e.fault := by
    rintro hk rfl
    exact ⟨rfl, .stray hk⟩
  rw [Scope.step] at h
  cases hk : t.kind <;> rw [hk] at h integer stray
  case definition => exact absurd hk hkind
  case sizeDefinition =>
    dsimp only at h
    split at h
    · cases h
    · obtain rfl := Except.error.inj h
      exact ⟨rfl, .size hk⟩
  case pad =>
    dsimp only at h
    split at h
    · cases h
    · next fault hfault =>
      obtain rfl := Except.error.inj h
      exact ⟨rfl, .pad hk hfault⟩
  case integer => exact literal (fun _ => integer (by decide)) h
  case hex => exact literal (fun _ => integer (by decide)) h
  case binary => exact literal (fun _ => integer (by decide)) h
  case float => exact literal (fun _ => .float hk) h
  case string => exact literal (fun _ => .string hk) h
  case reference =>
    dsimp only at h
    split at h
    · cases h
    · next hlook =>
      obtain rfl := Except.error.inj h
      exact ⟨rfl, .reference hk hlook⟩
  all_goals exact stray (by decide) (Except.error.inj h).symm

/-- If no name is involved no depth is. -/
theorem error_of_step {e : CompileError} (h : scope.step st define t = .error e)
    (hkind : t.kind ≠ .definition) :
    e.line = t.line ∧ (e.fault.IsLocal ∨ t.kind = .reference ∧
      e.fault = .undefinedVariable (t.text.dropWhile (· == '$')) ∧
      scope.symbols.lookup (t.text.dropWhile (· == '$')) = none) := by
  obtain ⟨hline, hfault⟩ := faultAt_of_step h hkind
  refine ⟨hline, ?_⟩
  generalize e.fault = fault at hfault ⊢
  cases hfault with
  | size _ => exact Or.inl trivial
  | pad _ hpad => exact Or.inl (isLocal_of_padWidth hpad)
  | integer _ hbytes => exact Or.inl (isLocal_of_integerBytes hbytes)
  | float _ hbytes => exact Or.inl (isLocal_of_floatBytes hbytes)
  | string _ hbytes => exact Or.inl (isLocal_of_stringBytes hbytes)
  | reference hk hlook => exact Or.inr ⟨hk, rfl, hlook⟩
  | stray _ => exact Or.inl trivial

end Tokens

/-! ## Another limit -/

section Limit

variable {st : Settings} {define define' : Nat → Text → Except CompileError Bytes} {limit : Nat}

/-- A step under another limit, where definitions are read under it as well. -/
theorem step_maxDepth (hdefine : ∀ line s,
      define' line s = (define line s).mapError (CompileError.withLimit limit))
    (scope : Scope) (t : Token ScriptKind) :
    scope.step { st with maxDepth := limit } define' t =
      (scope.step st define t).mapError (CompileError.withLimit limit) := by
  by_cases hkind : t.kind = .definition
  · rw [Scope.step, Scope.step, hkind]
    dsimp only
    rw [hdefine]
    cases define t.line (assignment t.text).2 <;> rfl
  · have hsame : scope.step { st with maxDepth := limit } define' t = scope.step st define t :=
      step_congr hkind rfl
    refine hsame.trans (mapError_eq_self fun e he => ?_).symm
    obtain ⟨-, hlocal | ⟨-, hfault, -⟩⟩ := error_of_step he hkind
    · rw [CompileError.withLimit, hlocal.withLimit]
    · rw [CompileError.withLimit, hfault]
      exact congrArg (CompileError.mk e.line) hfault.symm

theorem exec_maxDepth (hdefine : ∀ line s,
      define' line s = (define line s).mapError (CompileError.withLimit limit))
    (scope : Scope) (ts : List (Token ScriptKind)) :
    scope.exec { st with maxDepth := limit } define' ts =
      (scope.exec st define ts).mapError (CompileError.withLimit limit) := by
  induction ts generalizing scope with
  | nil => rfl
  | cons t ts ih =>
    rw [Scope.exec_cons, Scope.exec_cons, step_maxDepth hdefine, mapError_bind]
    refine congrArg _ (funext fun p => ?_)
    rw [ih, mapError_map]

theorem runScript_maxDepth (hdefine : ∀ line s,
      define' line s = (define line s).mapError (CompileError.withLimit limit)) (s : Text) :
    runScript { st with maxDepth := limit } define' s =
      (runScript st define s).mapError (CompileError.withLimit limit) := by
  have hscan : (scanScript s).mapError (CompileError.withLimit limit) = scanScript s :=
    mapError_eq_self fun e he => by
      obtain ⟨u, _, rfl⟩ := exists_of_mapError_eq_error he
      rfl
  rw [runScript_eq_exec, runScript_eq_exec, mapError_bind, hscan]
  refine congrArg _ (funext fun ts => ?_)
  rw [mapError_map, ← exec_maxDepth hdefine]
  rfl

/-- **A script under another limit** gives the same bytes, or the same error with that limit. -/
theorem compileWithin_maxDepth (depth : Nat) (s : Text) :
    compileWithin { st with maxDepth := limit } depth s =
      (compileWithin st depth s).mapError (CompileError.withLimit limit) := by
  rw [compileWithin_eq, compileWithin_eq]
  refine runScript_maxDepth (fun line r => ?_) s
  cases depth with
  | zero => rfl
  | succ depth =>
    rw [defineWithin, defineWithin, compileWithin_maxDepth depth r, mapError_mapError,
      mapError_mapError]
    rfl

end Limit

/-! ## One line -/

section OneLine

variable {st : Settings} {define : Nat → Text → Except CompileError Bytes}

/-- The right-hand side of a definition is the end of its text. -/
theorem assignment_suffix (text : Text) : (assignment text).2 <:+ text.drop 1 := by
  rw [assignment]
  cases hcut : Text.cut? '=' (text.drop 1) with
  | none => exact List.nil_suffix
  | some p => exact ⟨p.1 ++ ['='], by simpa using (Text.eq_of_cut? hcut).symm⟩

theorem mem_of_mem_assignment {text : Text} {c : Char} (h : c ∈ (assignment text).2) :
    c ∈ text :=
  List.mem_of_mem_drop ((assignment_suffix text).subset h)

theorem define_of_step {scope : Scope} {t : Token ScriptKind} {e : CompileError}
    (hkind : t.kind = .definition) (h : scope.step st define t = .error e) :
    define t.line (assignment t.text).2 = .error e := by
  rw [Scope.step, hkind] at h
  rcases bind_eq_error_iff.mp h with h | ⟨bs, _, h⟩
  · exact h
  · cases h

/-- A script of one line fails on that line if its definitions do. -/
theorem line_eq_one_of_runScript
    (hdefine : ∀ r, '\n' ∉ r → ∀ e, define 1 r = .error e → e.line = 1) {s : Text}
    (hs : '\n' ∉ s) {e : CompileError} (h : runScript st define s = .error e) : e.line = 1 := by
  rw [runScript_eq_exec] at h
  rcases bind_eq_error_iff.mp h with h | ⟨ts, hts, h⟩
  · obtain ⟨u, hu, rfl⟩ := exists_of_mapError_eq_error h
    exact (standsIn_of_scanFrom_eq_error hu).row_eq hs
  · obtain ⟨us, t, vs, q, rfl, _, hstep⟩ := exists_step_of_exec_eq_error (map_eq_error_iff.mp h)
    have hplace := standsIn_of_scanFrom (mapError_eq_ok_iff.mp hts)
      (List.mem_append_right us List.mem_cons_self)
    have hline := hplace.row_eq hs
    by_cases hkind : t.kind = .definition
    · have hright := define_of_step hkind hstep
      rw [hline] at hright
      exact hdefine _ (fun hmem => hs (hplace.mem (mem_of_mem_assignment hmem))) e hright
    · exact (error_of_step hstep hkind).1.trans hline

/-- **A script of one line fails on that line.** -/
theorem line_eq_one_of_compileWithin {depth : Nat} {s : Text} (hs : '\n' ∉ s) {e : CompileError}
    (h : compileWithin st depth s = .error e) : e.line = 1 := by
  induction depth generalizing s e with
  | zero =>
    refine line_eq_one_of_runScript (fun r _ e he => ?_) hs h
    obtain rfl := Except.error.inj he
    rfl
  | succ depth ih =>
    refine line_eq_one_of_runScript (fun r hr e he => ?_) hs h
    obtain ⟨d, hd, rfl⟩ := exists_of_mapError_eq_error he
    exact ih hr hd

end OneLine

end ByteScript
