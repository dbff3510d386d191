import ByteScript.Proofs.Script.Binding

/-!
# Scopes that agree

Two scopes with the same widths that agree on the names that are asked for give tokens the same
bytes and the same errors, and go on to agree on these names and on those that are bound on the way.
Tokens on other lines give the same bytes too, and their errors are on the other lines.

* `Scope.AgreesOn`: the scopes differ in other names at most; `SameOutcome`: what they lead to;
* `step_agreesOn`, **`exec_agreesOn`**: a token and a list of tokens;
* `step_move`, **`exec_move`**: tokens that stand further on.
-/

namespace ByteScript

/-! ## Other names in scope -/

/-- The name that a reference asks for. -/
def Token.referent (t : Token ScriptKind) : Text := t.text.dropWhile (· == '$')

/-- The scopes have the same widths, and the same values for these names. -/
structure Scope.AgreesOn (on : Text → Prop) (scope scope' : Scope) : Prop where
  padWidths : scope.padWidths = scope'.padWidths
  pad : scope.pad = scope'.pad
  lookup : ∀ name, on name → scope.symbols.lookup name = scope'.symbols.lookup name

/-- The same bytes in scopes that agree on these names, or the same error. -/
inductive SameOutcome (on : Text → Prop) :
    Except CompileError (Scope × Bytes) → Except CompileError (Scope × Bytes) → Prop
  | ok {scope scope' : Scope} (h : scope.AgreesOn on scope') (bs : Bytes) :
    SameOutcome on (.ok (scope, bs)) (.ok (scope', bs))
  | error (e : CompileError) : SameOutcome on (.error e) (.error e)

namespace Scope.AgreesOn

variable {on on' : Text → Prop} {scope scope' : Scope}

theorem mono (h : scope.AgreesOn on scope') (hon : ∀ name, on' name → on name) :
    scope.AgreesOn on' scope' :=
  ⟨h.padWidths, h.pad, fun name hname => h.lookup name (hon name hname)⟩

/-- Binding a name to the same bytes makes the scopes agree on it. -/
theorem bind (h : scope.AgreesOn on scope') (name : Text) (bs : Bytes) :
    Scope.AgreesOn (fun n => n = name ∨ on n) { scope with symbols := (name, bs) :: scope.symbols }
      { scope' with symbols := (name, bs) :: scope'.symbols } where
  padWidths := h.padWidths
  pad := h.pad
  lookup n hn := by
    by_cases hname : n = name
    · rw [hname, List.lookup_cons_self, List.lookup_cons_self]
    · rw [List.lookup_cons, List.lookup_cons, beq_eq_false_iff_ne.mpr hname]
      exact h.lookup n (hn.resolve_left hname)

theorem setWidth (h : scope.AgreesOn on scope') (name : Text) (n : Nat) :
    Scope.AgreesOn on { scope with padWidths := (name, n) :: scope.padWidths }
      { scope' with padWidths := (name, n) :: scope'.padWidths } :=
  ⟨congrArg ((name, n) :: ·) h.padWidths, h.pad, h.lookup⟩

theorem setPad (h : scope.AgreesOn on scope') (pad : Option Nat) :
    Scope.AgreesOn on { scope with pad } { scope' with pad } := ⟨h.padWidths, rfl, h.lookup⟩

theorem padWidth (h : scope.AgreesOn on scope') (text : Text) :
    scope.padWidth text = scope'.padWidth text := by
  rw [Scope.padWidth, Scope.padWidth, h.padWidths]

end Scope.AgreesOn

/-- The bytes are the same. -/
theorem SameOutcome.map_snd {on : Text → Prop} {x y : Except CompileError (Scope × Bytes)}
    (h : SameOutcome on x y) : x.map Prod.snd = y.map Prod.snd := by
  cases h <;> rfl

section Agreement

variable {st : Settings} {define : Nat → Text → Except CompileError Bytes}
  {on : Text → Prop} {scope scope' : Scope}

/-- A token has the same outcome in scopes that agree on the name that it asks for, if any. -/
theorem step_agreesOn (h : scope.AgreesOn on scope') {t : Token ScriptKind}
    (href : t.kind = .reference → on t.referent) :
    SameOutcome (fun n => n ∈ definedNames [t] ∨ on n) (scope.step st define t)
      (scope'.step st define t) := by
  have kept : t.kind ≠ .definition → ∀ n, n ∈ definedNames [t] ∨ on n → on n := by
    intro hkind n hn
    rw [definedNames_cons, if_neg hkind] at hn
    exact hn.resolve_left List.not_mem_nil
  have literal : ∀ r : Except CompileFault Bytes, t.kind ≠ .definition →
      SameOutcome (fun n => n ∈ definedNames [t] ∨ on n)
        ((r.mapError (CompileError.mk t.line)).map fun bs => (scope, bs))
        ((r.mapError (CompileError.mk t.line)).map fun bs => (scope', bs)) := by
    intro r hkind
    cases r with
    | error fault => exact .error _
    | ok bs => exact .ok (h.mono (kept hkind)) bs
  rw [Scope.step, Scope.step, ← h.padWidth]
  cases hk : t.kind <;> rw [hk] at kept literal
  case definition =>
    dsimp only
    cases define t.line (assignment t.text).2 with
    | error e => exact .error e
    | ok bs =>
      refine .ok ((h.bind (assignment t.text).1 bs).mono fun n hn => ?_) []
      rw [definedNames_cons, if_pos hk] at hn
      exact hn.imp_left List.mem_singleton.mp
  case sizeDefinition =>
    dsimp only
    split
    · exact .ok ((h.setWidth _ _).mono (kept (by decide))) []
    · exact .error _
  case pad =>
    dsimp only
    split
    · exact .ok ((h.setPad _).mono (kept (by decide))) []
    · exact .error _
  case reference =>
    have hlook : scope.symbols.lookup (t.text.dropWhile (· == '$')) =
        scope'.symbols.lookup (t.text.dropWhile (· == '$')) := h.lookup t.referent (href hk)
    dsimp only
    rw [hlook]
    split
    · exact .ok (h.mono (kept (by decide))) _
    · exact .error _
  case comment => exact .error _
  case blank => exact .error _
  case mismatch => exact .error _
  case string => exact literal _ (by decide)
  all_goals
    rw [← h.pad]
    exact literal _ (by decide)

/-- **Tokens have the same outcome** in scopes that agree on the names that they ask for and do not
bind first. -/
theorem exec_agreesOn {ts : List (Token ScriptKind)} (h : scope.AgreesOn on scope')
    (href : ∀ us t vs, ts = us ++ t :: vs → t.kind = .reference →
      t.referent ∈ definedNames us ∨ on t.referent) :
    SameOutcome (fun n => n ∈ definedNames ts ∨ on n) (scope.exec st define ts)
      (scope'.exec st define ts) := by
  induction ts generalizing on scope scope' with
  | nil => exact .ok (h.mono fun n hn => hn.resolve_left List.not_mem_nil) []
  | cons t ts ih =>
    have hstep := @step_agreesOn st define on scope scope' h t fun hkind =>
      (href [] t ts rfl hkind).resolve_left List.not_mem_nil
    rw [Scope.exec_cons, Scope.exec_cons]
    generalize scope.step st define t = x, scope'.step st define t = y at hstep ⊢
    cases hstep with
    | error e => exact .error e
    | @ok next next' hnext bs =>
      have hrest := ih hnext fun us u vs hts hkind => by
        have := href (t :: us) u vs (congrArg (t :: ·) hts) hkind
        rw [← List.singleton_append, definedNames_append, List.mem_append] at this
        tauto
      change SameOutcome _ ((next.exec st define ts).map _) ((next'.exec st define ts).map _)
      generalize next.exec st define ts = x, next'.exec st define ts = y at hrest ⊢
      cases hrest with
      | error e => exact .error e
      | @ok last last' hlast more =>
        refine .ok (hlast.mono fun n hn => ?_) (bs ++ more)
        rw [← List.singleton_append, definedNames_append, List.mem_append] at hn
        tauto

end Agreement

/-! ## Other lines -/

section Lines

variable {st : Settings} {define : Nat → Text → Except CompileError Bytes} {bytes lines : Nat}

/-- A token further down has the same outcome as far down, if definitions have. -/
theorem step_move (scope : Scope) (t : Token ScriptKind) (hdefine : ∀ s,
      define (t.line + lines) s = (define t.line s).mapError (CompileError.shift lines)) :
    scope.step st define (t.move bytes lines) =
      (scope.step st define t).mapError (CompileError.shift lines) := by
  have literal : ∀ r : Except CompileFault Bytes,
      (r.mapError (CompileError.mk (t.line + lines))).map (fun bs => (scope, bs)) =
        ((r.mapError (CompileError.mk t.line)).map fun bs => (scope, bs)).mapError
          (CompileError.shift lines) := by
    intro r
    cases r <;> rfl
  rw [Scope.step, Scope.step]
  dsimp only [Token.move]
  cases t.kind
  case definition =>
    dsimp only
    rw [hdefine]
    cases define t.line (assignment t.text).2 <;> rfl
  case sizeDefinition =>
    dsimp only
    split <;> rfl
  case pad =>
    dsimp only
    split <;> rfl
  case reference =>
    dsimp only
    split <;> rfl
  case comment => rfl
  case blank => rfl
  case mismatch => rfl
  all_goals exact literal _

/-- **Tokens further down** have the same outcome as far down. -/
theorem exec_move {ts : List (Token ScriptKind)} (scope : Scope) (hdefine : ∀ t ∈ ts, ∀ s,
      define (t.line + lines) s = (define t.line s).mapError (CompileError.shift lines)) :
    scope.exec st define (ts.map (Token.move bytes lines)) =
      (scope.exec st define ts).mapError (CompileError.shift lines) := by
  induction ts generalizing scope with
  | nil => rfl
  | cons t ts ih =>
    rw [List.map_cons, Scope.exec_cons, Scope.exec_cons, mapError_bind,
      step_move scope t (hdefine t List.mem_cons_self)]
    refine congrArg _ (funext fun p => ?_)
    rw [ih p.1 fun u hu => hdefine u (List.mem_cons_of_mem t hu), mapError_map]

/-- The value of a definition further down is the same, and its errors are as far down. -/
theorem defineWithin_add (depth : Nat) {line : Nat} (hline : 1 ≤ line) (s : Text) :
    defineWithin st depth (line + lines) s =
      (defineWithin st depth line s).mapError (CompileError.shift lines) := by
  cases depth with
  | zero => rfl
  | succ depth =>
    rw [defineWithin, defineWithin, mapError_mapError, Nat.sub_add_comm hline]
    exact congrArg (Except.mapError · _) (funext fun e => (e.shift_shift _ _).symm)

end Lines

end ByteScript
