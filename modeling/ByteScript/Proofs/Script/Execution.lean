import ByteScript.Proofs.Script.Scanning

/-!
# Reading the tokens of a script

The tokens of a part of a script take one scope to another and give bytes; parts one after the
other compose. Only errors tell where a token is, so this is a fact about pieces.

* `Scope.exec`: the scope after a list of tokens beside their bytes; `Scope.run_eq_exec`;
* `exists_step_of_exec`, `exists_step_of_exec_eq_error`: the steps that are taken;
* `Executes`: the scope after some pieces and their bytes; `Executes.append`; `executes_of_exec`:
  the pieces of tokens that are read;
* `Yields`: the same of pieces that may fail to be read; `Yields.append`, `Yields.string`;
* `defineWithin`, `compileWithin_eq`: the values of definitions at a depth;
* `toOption_runScript`, **`runScript_eq`**, `runScript_eq_exec`: the bytes of a script from its
  pieces and its tokens; `exists_exec_of_compile`: the tokens of a script that compiles.
-/

namespace ByteScript

variable (st : Settings) (define : Nat → Text → Except CompileError Bytes)

/-- The scope after a list of tokens and the bytes that they give. -/
def Scope.exec : Scope → List (Token ScriptKind) → Except CompileError (Scope × Bytes)
  | scope, [] => .ok (scope, [])
  | scope, t :: ts => do
    let (scope, bs) ← scope.step st define t
    let (scope, more) ← Scope.exec scope ts
    return (scope, bs ++ more)

theorem Scope.exec_cons (scope : Scope) (t : Token ScriptKind) (ts : List (Token ScriptKind)) :
    scope.exec st define (t :: ts) = (scope.step st define t).bind fun p =>
      (p.1.exec st define ts).map fun q => (q.1, p.2 ++ q.2) := by
  rw [Scope.exec]
  cases scope.step st define t with
  | error e => rfl
  | ok p =>
    change (p.1.exec st define ts >>= fun q => pure (q.1, p.2 ++ q.2)) =
      (p.1.exec st define ts).map _
    cases p.1.exec st define ts <;> rfl

theorem Scope.run_eq_exec (scope : Scope) (ts : List (Token ScriptKind)) :
    scope.run st define ts = (scope.exec st define ts).map Prod.snd := by
  induction ts generalizing scope with
  | nil => rfl
  | cons t ts ih =>
    rw [Scope.run, Scope.exec_cons]
    cases scope.step st define t with
    | error e => rfl
    | ok p =>
      change (p.1.run st define ts >>= fun rest => pure (p.2 ++ rest)) =
        ((p.1.exec st define ts).map fun q => (q.1, p.2 ++ q.2)).map Prod.snd
      rw [ih]
      cases p.1.exec st define ts <;> rfl

theorem Scope.exec_append (scope : Scope) (ts us : List (Token ScriptKind)) :
    scope.exec st define (ts ++ us) = (scope.exec st define ts).bind fun p =>
      (p.1.exec st define us).map fun q => (q.1, p.2 ++ q.2) := by
  induction ts generalizing scope with
  | nil =>
    change scope.exec st define us = (scope.exec st define us).map fun q => (q.1, [] ++ q.2)
    cases scope.exec st define us <;> rfl
  | cons t ts ih =>
    rw [List.cons_append, Scope.exec_cons, Scope.exec_cons]
    cases scope.step st define t with
    | error e => rfl
    | ok p =>
      change (p.1.exec st define (ts ++ us)).map _ =
        ((p.1.exec st define ts).map fun q => (q.1, p.2 ++ q.2)).bind _
      rw [ih]
      cases p.1.exec st define ts with
      | error e => rfl
      | ok q =>
        change ((q.1.exec st define us).map _).map _ = (q.1.exec st define us).map _
        cases q.1.exec st define us with
        | error e => rfl
        | ok r => simp only [Except.map, List.append_assoc]

/-! ## Steps -/

section Steps

variable {st define}

/-- Where tokens are read, each of them takes a step. -/
theorem exists_step_of_exec {scope : Scope} {us vs : List (Token ScriptKind)}
    {t : Token ScriptKind} {p : Scope × Bytes} (h : scope.exec st define (us ++ t :: vs) = .ok p) :
    ∃ q r, scope.exec st define us = .ok q ∧ q.1.step st define t = .ok r := by
  rw [Scope.exec_append] at h
  obtain ⟨q, hq, h⟩ := exists_of_bind_eq_ok h
  obtain ⟨r, hr, _⟩ := exists_of_map_eq_ok h
  rw [Scope.exec_cons] at hr
  obtain ⟨r, hr, _⟩ := exists_of_bind_eq_ok hr
  exact ⟨q, r, hq, hr⟩

/-- Where tokens are not read, one of them after those that are takes no step. -/
theorem exists_step_of_exec_eq_error {scope : Scope} {ts : List (Token ScriptKind)}
    {e : CompileError} (h : scope.exec st define ts = .error e) :
    ∃ us t vs q, ts = us ++ t :: vs ∧ scope.exec st define us = .ok q ∧
      q.1.step st define t = .error e := by
  induction ts generalizing scope with
  | nil => cases h
  | cons t ts ih =>
    rw [Scope.exec_cons] at h
    cases ht : scope.step st define t with
    | error d =>
      rw [ht] at h
      exact ⟨[], t, ts, (scope, []), rfl, rfl, ht.trans h⟩
    | ok p =>
      rw [ht] at h
      obtain ⟨us, u, vs, q, rfl, hus, hu⟩ := ih (map_eq_error_iff.mp h)
      refine ⟨t :: us, u, vs, (q.1, p.2 ++ q.2), rfl, ?_, hu⟩
      rw [Scope.exec_cons, ht]
      change (p.1.exec st define us).map _ = _
      rw [hus]
      rfl

end Steps

/-! ## Pieces -/

/-- Tokens with these pieces take the first scope to the second and give the bytes. -/
def Executes (scope : Scope) (ps : List (ScriptKind × Text)) (scope' : Scope) (bs : Bytes) : Prop :=
  ∀ ts : List (Token ScriptKind), ts.map Token.piece = ps →
    scope.exec st define ts = .ok (scope', bs)

variable {st define}

namespace Executes

theorem nil (scope : Scope) : Executes st define scope [] scope [] := by
  intro ts hts
  rw [List.map_eq_nil_iff.mp hts]
  rfl

/-- **Pieces one after the other give their bytes one after the other.** -/
theorem append {s₁ s₂ s₃ : Scope} {ps qs : List (ScriptKind × Text)} {bs cs : Bytes}
    (hp : Executes st define s₁ ps s₂ bs) (hq : Executes st define s₂ qs s₃ cs) :
    Executes st define s₁ (ps ++ qs) s₃ (bs ++ cs) := by
  intro ts hts
  obtain ⟨us, vs, rfl, hus, hvs⟩ := List.map_eq_append_iff.mp hts
  rw [Scope.exec_append, hp us hus]
  change (s₂.exec st define vs).map _ = _
  rw [hq vs hvs]
  rfl

theorem piece {k : ScriptKind} {s : Text} {scope scope' : Scope} {bs : Bytes}
    (h : ∀ start line, scope.step st define ⟨k, s, start, line⟩ = .ok (scope', bs)) :
    Executes st define scope [(k, s)] scope' bs := by
  intro ts hts
  obtain ⟨t, us, rfl, ht, hus⟩ := List.map_eq_cons_iff.mp hts
  obtain rfl := List.map_eq_nil_iff.mp hus
  obtain ⟨rfl, rfl⟩ := Prod.mk.inj ht
  rw [Scope.exec_cons, h t.start t.line]
  exact congrArg Except.ok (Prod.ext rfl (List.append_nil _))

section Pieces

variable {scope : Scope} {s : Text} {bs : Bytes}

theorem definition {name value : Text} (hs : assignment s = (name, value))
    (h : ∀ line, define line value = .ok bs) :
    Executes st define scope [(.definition, s)]
      { scope with symbols := (name, bs) :: scope.symbols } [] :=
  piece fun _ line => by rw [Scope.step, hs, h line]; rfl

theorem sizeDefinition {name value : Text} (hs : assignment s = (name, value)) {n : Nat}
    (h : size? value = some n) :
    Executes st define scope [(.sizeDefinition, s)]
      { scope with padWidths := (name.lower, n) :: scope.padWidths } [] :=
  piece fun _ line => by simp only [Scope.step, hs, h]

theorem pad {p : Option Nat} (h : scope.padWidth s = .ok p) :
    Executes st define scope [(.pad, s)] { scope with pad := p } [] :=
  piece fun _ line => by simp only [Scope.step, h]

theorem integer (h : integerBytes scope.pad s 10 (s.drop 1) (s.head? == some '-') = .ok bs) :
    Executes st define scope [(.integer, s)] scope bs :=
  piece fun _ line => by simp only [Scope.step, h]; rfl

theorem hex (h : integerBytes scope.pad s 16 (s.drop 1) false = .ok bs) :
    Executes st define scope [(.hex, s)] scope bs :=
  piece fun _ line => by simp only [Scope.step, h]; rfl

theorem binary
    (h : integerBytes scope.pad s 2 (s.filter fun c => c == '0' || c == '1') false = .ok bs) :
    Executes st define scope [(.binary, s)] scope bs :=
  piece fun _ line => by simp only [Scope.step, h]; rfl

theorem float (h : floatBytes scope.pad s = .ok bs) :
    Executes st define scope [(.float, s)] scope bs :=
  piece fun _ line => by simp only [Scope.step, h]; rfl

theorem string (h : stringBytes st.encoding s = .ok bs) :
    Executes st define scope [(.string, s)] scope bs :=
  piece fun _ line => by simp only [Scope.step, h]; rfl

theorem reference (h : scope.symbols.lookup (s.dropWhile (· == '$')) = some bs) :
    Executes st define scope [(.reference, s)] scope bs :=
  piece fun _ line => by simp only [Scope.step, h]

end Pieces

end Executes

variable (st define) in
/-- Tokens with these pieces take the first scope to the second and give the bytes; without bytes
they are not read. -/
def Yields (scope : Scope) (ps : List (ScriptKind × Text)) (scope' : Scope) (bs : Option Bytes) :
    Prop :=
  ∀ ts : List (Token ScriptKind), ts.map Token.piece = ps →
    (scope.exec st define ts).toOption = bs.map (scope', ·)

theorem Executes.yields {scope scope' : Scope} {ps : List (ScriptKind × Text)} {bs : Bytes}
    (h : Executes st define scope ps scope' bs) : Yields st define scope ps scope' (some bs) :=
  fun ts hts => by rw [h ts hts]; rfl

namespace Yields

theorem executes {scope scope' : Scope} {ps : List (ScriptKind × Text)} {bs : Bytes}
    (h : Yields st define scope ps scope' (some bs)) : Executes st define scope ps scope' bs :=
  fun ts hts => toOption_eq_some_iff.mp (h ts hts)

/-- **Pieces one after the other** are read if both are. -/
theorem append {s₁ s₂ s₃ : Scope} {ps qs : List (ScriptKind × Text)} {bs cs : Option Bytes}
    (hp : Yields st define s₁ ps s₂ bs) (hq : Yields st define s₂ qs s₃ cs) :
    Yields st define s₁ (ps ++ qs) s₃ (bs.bind fun b => cs.map (b ++ ·)) := by
  intro ts hts
  obtain ⟨us, vs, rfl, hus, hvs⟩ := List.map_eq_append_iff.mp hts
  have hfirst := hp us hus
  have hsecond := hq vs hvs
  rw [Scope.exec_append]
  cases bs with
  | none =>
    obtain ⟨e, he⟩ := toOption_eq_none_iff.mp hfirst
    rw [he]
    rfl
  | some b =>
    rw [toOption_eq_some_iff.mp hfirst]
    change ((s₂.exec st define vs).map _).toOption = _
    rw [toOption_map, hsecond]
    cases cs <;> rfl

theorem string (scope : Scope) (s : Text) : Yields st define scope [(.string, s)] scope
    (stringBytes st.encoding s).toOption := by
  cases h : stringBytes st.encoding s with
  | ok bs => exact (Executes.string h).yields
  | error fault =>
    intro ts hts
    obtain ⟨t, us, rfl, ht, -⟩ := List.map_eq_cons_iff.mp hts
    obtain ⟨hkind, rfl⟩ := Prod.mk.inj ht
    rw [Scope.exec_cons]
    simp only [Scope.step, hkind, h]
    rfl

end Yields

theorem Executes.append_yields {s₁ s₂ s₃ : Scope} {ps qs : List (ScriptKind × Text)}
    {bs : Option Bytes} (hp : Executes st define s₁ ps s₂ [])
    (hq : Yields st define s₂ qs s₃ bs) : Yields st define s₁ (ps ++ qs) s₃ bs := by
  have h := hp.yields.append hq
  cases bs <;> exact h

section Lines

variable (hdefine : ∀ line line' s bs, define line s = .ok bs → define line' s = .ok bs)

include hdefine

/-- A token that is read is read on any other line. -/
theorem step_of_piece {scope : Scope} {t t' : Token ScriptKind} (hpiece : t'.piece = t.piece)
    {p : Scope × Bytes} (h : scope.step st define t = .ok p) :
    scope.step st define t' = .ok p := by
  obtain ⟨hkind, htext⟩ := Prod.mk.inj hpiece
  have literal : ∀ {r : Except CompileFault Bytes},
      (r.mapError (CompileError.mk t.line)).map (fun bs => (scope, bs)) = .ok p →
        (r.mapError (CompileError.mk t'.line)).map (fun bs => (scope, bs)) = .ok p := by
    intro r hr
    cases r with
    | error e => cases hr
    | ok bs => exact hr
  rw [Scope.step] at h ⊢
  rw [hkind, htext]
  cases hk : t.kind <;> rw [hk] at h
  case definition =>
    obtain ⟨bs, hbs, hp⟩ := exists_of_bind_eq_ok h
    dsimp only
    rw [hdefine t.line t'.line _ bs hbs]
    exact hp
  case sizeDefinition =>
    dsimp only at h ⊢
    split at h
    · exact h
    · cases h
  case pad =>
    dsimp only at h ⊢
    split at h
    · exact h
    · cases h
  case reference =>
    dsimp only at h ⊢
    split at h
    · exact h
    · cases h
  case comment => cases h
  case blank => cases h
  case mismatch => cases h
  all_goals exact literal h

/-- **Tokens that are read are read on any other lines.** -/
theorem executes_of_exec {scope : Scope} {ts : List (Token ScriptKind)} {p : Scope × Bytes}
    (h : scope.exec st define ts = .ok p) :
    Executes st define scope (ts.map Token.piece) p.1 p.2 := by
  induction ts generalizing scope p with
  | nil =>
    obtain rfl := Except.ok.inj h
    exact .nil scope
  | cons t ts ih =>
    rw [Scope.exec_cons] at h
    obtain ⟨q, hq, h⟩ := exists_of_bind_eq_ok h
    obtain ⟨r, hr, rfl⟩ := exists_of_map_eq_ok h
    refine Executes.append (.piece fun start line => ?_) (ih hr)
    have hpiece : Token.piece ⟨t.kind, t.text, start, line⟩ = t.piece := rfl
    exact step_of_piece hdefine hpiece hq

end Lines

/-! ## Names -/

theorem assignment_eq {mark : Char} {name : Text} (hname : IsIdentifier name) (value : Text) :
    assignment (mark :: (name ++ '=' :: value)) = (name, value) := by
  have hnot : '=' ∉ name := fun h => absurd (hname.2 _ h) (by decide)
  rw [assignment, List.drop_succ_cons, List.drop_zero, Text.cut?_append '=' hnot]
  rfl

theorem IsIdentifier.dropWhile_dollar {name : Text} (h : IsIdentifier name) :
    name.dropWhile (· == '$') = name := by
  obtain ⟨c, s, rfl⟩ := List.exists_cons_of_ne_nil h.ne_nil
  have hc : isNameStart c = true := h.1
  rw [isNameStart_iff] at hc
  refine List.dropWhile_cons_of_neg ?_
  rw [beq_iff_eq]
  rintro rfl
  exact absurd hc (by decide)

/-! ## Scripts -/

/-- What a script gives is what its pieces do. -/
theorem toOption_runScript {s : Text} {ps : List (ScriptKind × Text)} {scope : Scope}
    {bs : Option Bytes} (hs : Scans s ps) (hp : Yields st define (Scope.root st) ps scope bs) :
    (runScript st define s).toOption = bs := by
  obtain ⟨ts, hts, hscan⟩ := hs 0 1 []
  rw [List.append_nil, scriptScan_nil] at hscan
  have htokens : scanScript s = .ok ts := by
    rw [scanScript_eq, hscan]
    exact congrArg Except.ok (List.append_nil ts)
  rw [runScript, htokens]
  change ((Scope.root st).run st define ts).toOption = _
  rw [Scope.run_eq_exec, toOption_map, hp ts hts]
  cases bs <;> rfl

/-- **The bytes of a script are those of its pieces.** -/
theorem runScript_eq {s : Text} {ps : List (ScriptKind × Text)} {scope : Scope} {bs : Bytes}
    (hs : Scans s ps) (hp : Executes st define (Scope.root st) ps scope bs) :
    runScript st define s = .ok bs :=
  toOption_eq_some_iff.mp (toOption_runScript hs hp.yields)

variable (st) in
/-- The value of a definition on a line of a script whose definitions nest to the given depth. -/
def defineWithin : (depth : Nat) → Nat → Text → Except CompileError Bytes
  | 0, line, _ => .error ⟨line, .depthLimit st.maxDepth⟩
  | depth + 1, line, s => (compileWithin st depth s).mapError (CompileError.shift (line - 1))

theorem defineWithin_line (depth line line' : Nat) (s : Text) (bs : Bytes)
    (h : defineWithin st depth line s = .ok bs) : defineWithin st depth line' s = .ok bs := by
  cases depth with
  | zero => cases h
  | succ depth => exact mapError_eq_ok_iff.mpr (mapError_eq_ok_iff.mp h)

theorem compileWithin_eq (depth : Nat) (s : Text) :
    compileWithin st depth s = runScript st (defineWithin st depth) s := by
  cases depth with
  | zero => rfl
  | succ depth => rfl

/-- The bytes of a script are those of its tokens. -/
theorem runScript_eq_exec (s : Text) :
    runScript st define s = (scanScript s).bind fun ts =>
      ((Scope.root st).exec st define ts).map Prod.snd := by
  rw [runScript]
  cases scanScript s with
  | error e => rfl
  | ok ts => exact Scope.run_eq_exec _ _ _ ts

/-- The bytes of a script of one token. -/
theorem runScript_single {s : Text} {k : ScriptKind} (hne : s ≠ [])
    (hk : k ∉ [ScriptKind.mismatch, .blank, .comment])
    (hnext : scriptTable.next s = (k, s.length)) :
    runScript st define s = ((Scope.root st).step st define ⟨k, s, 0, 1⟩).map Prod.snd := by
  have htokens : scanScript s = .ok [⟨k, s, 0, 1⟩] :=
    congrArg (Except.mapError _) (scriptScan_single hne hk hnext 0 1)
  rw [runScript_eq_exec, htokens]
  change ((Scope.root st).exec st define [⟨k, s, 0, 1⟩]).map Prod.snd = _
  rw [Scope.exec_cons]
  cases (Scope.root st).step st define ⟨k, s, 0, 1⟩ with
  | error e => rfl
  | ok p => exact congrArg Except.ok (List.append_nil _)

theorem map_snd_map {ε δ α β : Type} (x : Except ε α) (f : ε → δ) (b : β) :
    ((x.mapError f).map fun a => (b, a)).map Prod.snd = x.mapError f := by
  cases x <;> rfl

theorem compile_eq (s : Text) :
    compile st s = (scanScript s).bind fun ts =>
      ((Scope.root st).exec st (defineWithin st st.maxDepth) ts).map Prod.snd := by
  rw [compile, compileWithin_eq, runScript_eq_exec]

/-- A script of one string with a value compiles to the encoding of its value. -/
theorem compile_string {s v : Text} (hne : s ≠ [])
    (hnext : scriptTable.next s = (.string, s.length)) (hv : unquote s = .ok v) :
    compile st s = match st.encoding.encode? v with
      | some bs => .ok bs
      | none => .error ⟨1, .unencodable st.encoding.name⟩ := by
  rw [compile, compileWithin_eq, runScript_single hne (by decide) hnext]
  refine (map_snd_map (stringBytes st.encoding s) (CompileError.mk 1) _).trans ?_
  cases hencode : st.encoding.encode? v with
  | none =>
    simp only [stringBytes, hv, hencode]
    rfl
  | some bs =>
    simp only [stringBytes, hv, hencode]
    rfl

/-- A script that compiles scans, and its tokens give its bytes. -/
theorem exists_exec_of_compile {s : Text} {bs : Bytes} (h : compile st s = .ok bs) :
    ∃ ts p, scanScript s = .ok ts ∧
      (Scope.root st).exec st (defineWithin st st.maxDepth) ts = .ok p ∧ p.2 = bs := by
  rw [compile_eq] at h
  obtain ⟨ts, hts, h⟩ := exists_of_bind_eq_ok h
  obtain ⟨p, hp, hbs⟩ := exists_of_map_eq_ok h
  exact ⟨ts, p, hts, hp, hbs⟩

theorem compile_of_executes {s : Text} {ts : List (Token ScriptKind)} (hts : scanScript s = .ok ts)
    {scope : Scope} {bs : Bytes}
    (h : Executes st (defineWithin st st.maxDepth) (Scope.root st) (ts.map Token.piece) scope bs) :
    compile st s = .ok bs := by
  rw [compile_eq, hts]
  change ((Scope.root st).exec st _ ts).map _ = _
  rw [h ts rfl]
  rfl

end ByteScript
