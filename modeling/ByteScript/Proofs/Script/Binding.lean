import ByteScript.Proofs.Script.Failure
import ByteScript.Proofs.Script.Concatenation

/-!
# Names bound in a script

The names that a script binds are those of its definitions. No other token adds one, and only a
reference asks for one.

* `definedNames`, `boundNames`: the names of the definitions among tokens and in a script;
* **`scope_of_step`**: what a token does to the scope; `names_of_step`, **`names_of_exec`**: the
  names in scope;
* `mem_names_iff`: the names in scope after a script;
* `mem_names_of_exec_append`, `mem_names_of_exec`: a reference that is read is in scope;
* `exists_reference_of_exec`: a name that is undefined is that of a reference not in scope;
* `dollar_mem_of_scan`: a script with a definition has a dollar sign.
-/

namespace ByteScript

/-- The names of the definitions among tokens. -/
def definedNames (ts : List (Token ScriptKind)) : List Text :=
  (ts.filter fun t => t.kind == .definition).map fun t => (assignment t.text).1

/-- The names that the definitions of a script bind. -/
def boundNames (s : Text) : List Text :=
  match scanScript s with
  | .ok ts => definedNames ts
  | .error _ => []

example : boundNames "$A=+1\n'$B' $C=#2\n$A".toList = ["A".toList, "C".toList] := by decide +kernel

theorem definedNames_cons (t : Token ScriptKind) (ts : List (Token ScriptKind)) :
    definedNames (t :: ts) =
      (if t.kind = .definition then [(assignment t.text).1] else []) ++ definedNames ts := by
  by_cases h : t.kind = .definition
  · rw [definedNames, List.filter_cons_of_pos (by rw [h]; rfl), if_pos h]
    rfl
  · rw [definedNames, List.filter_cons_of_neg (by rwa [beq_iff_eq]), if_neg h]
    rfl

theorem definedNames_append (ts us : List (Token ScriptKind)) :
    definedNames (ts ++ us) = definedNames ts ++ definedNames us := by
  rw [definedNames, List.filter_append, List.map_append]
  rfl

theorem definedNames_eq_nil {ts : List (Token ScriptKind)}
    (h : ∀ t ∈ ts, t.kind ≠ .definition) : definedNames ts = [] := by
  rw [definedNames, List.filter_eq_nil_iff.mpr fun t ht => by rw [beq_iff_eq]; exact h t ht]
  rfl

theorem definedNames_eq_of_piece (ts : List (Token ScriptKind)) :
    definedNames ts = ((ts.map Token.piece).filter fun p => p.1 == .definition).map fun p =>
      (assignment p.2).1 := by
  rw [List.filter_map, List.map_map]
  rfl

theorem scanScript_eq_ok_iff {s : Text} {ts : List (Token ScriptKind)} :
    scanScript s = .ok ts ↔ scriptScan 0 1 s = .ok ts := mapError_eq_ok_iff

theorem boundNames_eq {s : Text} {ts : List (Token ScriptKind)} (h : scanScript s = .ok ts) :
    boundNames s = definedNames ts := by
  rw [boundNames, h]

/-! ## Scopes -/

/-- The names in a scope. -/
def Scope.names (scope : Scope) : List Text := scope.symbols.map Prod.fst

theorem lookup_eq_none_iff_not_mem {α : Type} {es : List (Text × α)} {key : Text} :
    es.lookup key = none ↔ key ∉ es.map Prod.fst := by
  rw [List.lookup_eq_none_iff]
  refine ⟨fun h hmem => ?_, fun h e he => ?_⟩
  · obtain ⟨e, he, rfl⟩ := List.mem_map.mp hmem
    exact absurd (h e he) (by rw [bne_self_eq_false]; exact Bool.false_ne_true)
  · rw [bne_iff_ne]
    rintro rfl
    exact h (List.mem_map_of_mem he)

section Names

variable {st : Settings} {define : Nat → Text → Except CompileError Bytes} {scope : Scope}

/-- **What a step does to the scope**: a definition binds its name, a directive sets a width, and any
other token changes nothing. -/
theorem scope_of_step {t : Token ScriptKind} {p : Scope × Bytes}
    (h : scope.step st define t = .ok p) :
    (t.kind = .definition ∧
      ∃ bs, p.1 = { scope with symbols := ((assignment t.text).1, bs) :: scope.symbols }) ∨
    (t.kind = .sizeDefinition ∧ ∃ n,
      p.1 = { scope with padWidths := ((assignment t.text).1.lower, n) :: scope.padWidths }) ∨
    (t.kind = .pad ∧ ∃ pad, p.1 = { scope with pad }) ∨
    (t.kind ≠ .definition ∧ t.kind ≠ .sizeDefinition ∧ t.kind ≠ .pad ∧ p.1 = scope) := by
  have same : ∀ {r : Except CompileFault Bytes},
      (r.mapError (CompileError.mk t.line)).map (fun bs => (scope, bs)) = .ok p → p.1 = scope := by
    intro r hr
    obtain ⟨bs, _, rfl⟩ := exists_of_map_eq_ok hr
    rfl
  rw [Scope.step] at h
  cases hk : t.kind <;> rw [hk] at h
  case definition =>
    obtain ⟨bs, _, hp⟩ := exists_of_bind_eq_ok h
    obtain rfl := Except.ok.inj hp
    exact Or.inl ⟨rfl, bs, rfl⟩
  case sizeDefinition =>
    dsimp only at h
    split at h
    · obtain rfl := Except.ok.inj h
      exact Or.inr (Or.inl ⟨rfl, _, rfl⟩)
    · cases h
  case pad =>
    dsimp only at h
    split at h
    · obtain rfl := Except.ok.inj h
      exact Or.inr (Or.inr (Or.inl ⟨rfl, _, rfl⟩))
    · cases h
  case reference =>
    dsimp only at h
    split at h
    · obtain rfl := Except.ok.inj h
      exact Or.inr (Or.inr (Or.inr ⟨by decide, by decide, by decide, rfl⟩))
    · cases h
  case comment => cases h
  case blank => cases h
  case mismatch => cases h
  all_goals exact Or.inr (Or.inr (Or.inr ⟨by decide, by decide, by decide, same h⟩))

/-- A step binds the name of a definition and no other. -/
theorem names_of_step {t : Token ScriptKind} {p : Scope × Bytes}
    (h : scope.step st define t = .ok p) :
    p.1.names = (if t.kind = .definition then [(assignment t.text).1] else []) ++ scope.names := by
  rcases scope_of_step h with ⟨hk, bs, hp⟩ | ⟨hk, n, hp⟩ | ⟨hk, pad, hp⟩ | ⟨hk, -, -, hp⟩
  · rw [hp, if_pos hk]
    rfl
  · rw [hp, if_neg (by rw [hk]; decide)]
    rfl
  · rw [hp, if_neg (by rw [hk]; decide)]
    rfl
  · rw [hp, if_neg hk]
    rfl

/-- **The names in scope after some tokens** are those of their definitions, the latest first. -/
theorem names_of_exec {ts : List (Token ScriptKind)} {p : Scope × Bytes}
    (h : scope.exec st define ts = .ok p) :
    p.1.names = (definedNames ts).reverse ++ scope.names := by
  induction ts generalizing scope p with
  | nil =>
    obtain rfl := Except.ok.inj h
    rfl
  | cons t ts ih =>
    rw [Scope.exec_cons] at h
    obtain ⟨q, hq, h⟩ := exists_of_bind_eq_ok h
    obtain ⟨r, hr, rfl⟩ := exists_of_map_eq_ok h
    rw [definedNames_cons, List.reverse_append, List.append_assoc]
    refine (ih hr).trans (congrArg _ ?_)
    rw [names_of_step hq]
    split <;> rfl

/-- The names in scope after a script are those that it binds. -/
theorem mem_names_iff {s : Text} {ts : List (Token ScriptKind)} (hts : scanScript s = .ok ts)
    {p : Scope × Bytes} (h : (Scope.root st).exec st define ts = .ok p) (name : Text) :
    name ∈ p.1.names ↔ name ∈ boundNames s := by
  rw [names_of_exec h, boundNames_eq hts, List.mem_append, List.mem_reverse]
  exact or_iff_left List.not_mem_nil

/-- A reference that is read asks for a name that a token before it binds or that is in scope. -/
theorem mem_names_of_exec_append {us vs : List (Token ScriptKind)} {t : Token ScriptKind}
    {p : Scope × Bytes} (h : scope.exec st define (us ++ t :: vs) = .ok p)
    (hkind : t.kind = .reference) :
    t.text.dropWhile (· == '$') ∈ definedNames us ∨ t.text.dropWhile (· == '$') ∈ scope.names := by
  obtain ⟨q, r, hus, hstep⟩ := exists_step_of_exec h
  have hnames := names_of_exec hus
  have hmem : t.text.dropWhile (· == '$') ∈ q.1.names := by
    by_contra hnot
    rw [Scope.names, ← lookup_eq_none_iff_not_mem] at hnot
    rw [Scope.step, hkind] at hstep
    simp only [hnot] at hstep
    cases hstep
  rwa [hnames, List.mem_append, List.mem_reverse] at hmem

/-- **A reference that is read is in scope**, where no token before it is a definition. -/
theorem mem_names_of_exec {ts : List (Token ScriptKind)} (hts : ∀ t ∈ ts, t.kind ≠ .definition)
    {p : Scope × Bytes} (h : scope.exec st define ts = .ok p) {t : Token ScriptKind} (ht : t ∈ ts)
    (hkind : t.kind = .reference) : t.text.dropWhile (· == '$') ∈ scope.names := by
  obtain ⟨us, vs, rfl⟩ := List.append_of_mem ht
  refine (mem_names_of_exec_append h hkind).resolve_left ?_
  rw [definedNames_eq_nil fun u hu => hts u (List.mem_append_left _ hu)]
  exact List.not_mem_nil

/-- Only a reference asks for a name, a definition apart. -/
theorem reference_of_step {t : Token ScriptKind} {n : Nat} {name : Text}
    (h : scope.step st define t = .error ⟨n, .undefinedVariable name⟩)
    (hkind : t.kind ≠ .definition) :
    t.kind = .reference ∧ t.text.dropWhile (· == '$') = name ∧ name ∉ scope.names := by
  obtain ⟨-, hlocal | ⟨hreference, hname, hlook⟩⟩ := error_of_step h hkind
  · exact hlocal.elim
  · obtain rfl := CompileFault.undefinedVariable.inj hname
    exact ⟨hreference, rfl, lookup_eq_none_iff_not_mem.mp hlook⟩

/-- **A name that is undefined** is that of a reference and not in scope, where no token is a
definition. -/
theorem exists_reference_of_exec {ts : List (Token ScriptKind)}
    (hts : ∀ t ∈ ts, t.kind ≠ .definition) {n : Nat} {name : Text}
    (h : scope.exec st define ts = .error ⟨n, .undefinedVariable name⟩) :
    name ∉ scope.names ∧
      ∃ t ∈ ts, t.kind = .reference ∧ t.text.dropWhile (· == '$') = name := by
  obtain ⟨us, t, vs, q, rfl, hus, hstep⟩ := exists_step_of_exec_eq_error h
  have ht : t ∈ us ++ t :: vs := List.mem_append_right _ List.mem_cons_self
  obtain ⟨hkind, hname, hnot⟩ := reference_of_step hstep (hts t ht)
  have hnames := names_of_exec hus
  rw [definedNames_eq_nil fun u hu => hts u (List.mem_append_left _ hu), List.reverse_nil,
    List.nil_append] at hnames
  exact ⟨hnames ▸ hnot, t, ht, hkind, hname⟩

/-- A string that is read has a value. -/
theorem exists_unquote_of_exec {ts : List (Token ScriptKind)} {p : Scope × Bytes}
    (h : scope.exec st define ts = .ok p) {t : Token ScriptKind} (ht : t ∈ ts)
    (hkind : t.kind = .string) : ∃ v, unquote t.text = .ok v := by
  obtain ⟨us, vs, rfl⟩ := List.append_of_mem ht
  obtain ⟨q, r, _, hstep⟩ := exists_step_of_exec h
  rw [Scope.step, hkind] at hstep
  obtain ⟨bs, hbs, _⟩ := exists_of_map_eq_ok hstep
  have hbytes := mapError_eq_ok_iff.mp hbs
  unfold stringBytes at hbytes
  split at hbytes
  · cases hbytes
  · exact ⟨_, by assumption⟩

end Names

/-! ## Definitions -/

theorem dollar_mem_of_next {s : Text} {n : Nat} (h : scriptTable.next s = (.definition, n)) :
    '$' ∈ s := by
  have hp := match_of_next (List.mem_iff_getElem?.mpr ⟨0, rfl⟩) h
  unfold Pattern.definition at hp
  split at hp
  · exact List.mem_cons_self
  · cases hp

/-- A script with a definition has a dollar sign. -/
theorem dollar_mem_of_scan {s : Text} {start line : Nat} {ts : List (Token ScriptKind)}
    (h : scriptScan start line s = .ok ts) {t : Token ScriptKind} (ht : t ∈ ts)
    (hkind : t.kind = .definition) : '$' ∈ s := by
  induction hlen : s.length using Nat.strongRecOn generalizing s start line ts with
  | ind m ih => ?_
  cases s with
  | nil =>
    rw [scriptScan_nil] at h
    obtain rfl := Except.ok.inj h
    cases ht
  | cons c s =>
    obtain ⟨k, a, b, us, hab, hne, hnext, _, hus, rfl⟩ := exists_of_scriptScan_cons h
    by_cases hk : k = .definition
    · exact dollar_mem_of_next (hk ▸ hnext)
    · have hmem : t ∈ us := by
        unfold keepToken at ht
        split at ht
        · exact ht
        · rcases List.mem_cons.mp ht with rfl | ht
          · exact absurd hkind hk
          · exact ht
      have hshort : b.length < m := hlen ▸ length_lt_of_eq_append hab hne
      rw [hab]
      exact List.mem_append_right _ (ih b.length hshort hus hmem rfl)

end ByteScript
