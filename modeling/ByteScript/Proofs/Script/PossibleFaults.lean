import ByteScript.Proofs.Literal.Pairing
import ByteScript.Proofs.Scan.Tiling
import ByteScript.Proofs.Script.Failure
import ByteScript.Proofs.Script.TokenAlone

/-!
# Errors that no script has

Some errors stand for cases that cannot arise. The scan leaves no token without a meaning; what it
takes for a number with a point is read as one in either format; and the body of a literal does not
end within an escape. So none of these errors is reported, at any depth of definitions.

* `kept_of_mem_scanScript`, `next_of_mem_scanScript`: the kinds of tokens, and tokens on their own;
* `exists_point`, `exists_floatBytes`: numbers with a point;
* `point_not_mem_of_sizeDefinition`: the numbers in definitions of widths;
* `CompileFault.IsInternal`: the faults in question; `not_isInternal_of_step`: the step of a token;
* **`not_isInternal_of_compileWithin`**: scripts;
* **`compile_faults`**: what all this says of scripts and literals.
-/

namespace ByteScript

/-! ## Tokens -/

section Tokens

variable {s : Text} {ts : List (Token ScriptKind)} {t : Token ScriptKind}

/-- **A token of a script has a meaning**: blanks and comments are left out, and what no pattern
takes is an error. -/
theorem kept_of_mem_scanScript (h : scanScript s = .ok ts) (ht : t ∈ ts) :
    t.kind ∉ [ScriptKind.mismatch, .blank, .comment] := by
  obtain ⟨us, -, htiles⟩ := scriptTable.exists_tiles s 0 1
  have hscan := (htiles.scanFrom_strict [.blank, .comment]).symm.trans (mapError_eq_ok_iff.mp h)
  split at hscan
  · next hnone =>
    obtain rfl := Except.ok.inj hscan
    obtain ⟨hmem, hkept⟩ := List.mem_filter.mp ht
    intro hk
    rcases List.mem_cons.mp hk with hk | hk
    · exact List.find?_eq_none.mp hnone t hmem (beq_iff_eq.mpr hk)
    · rw [List.contains_iff_mem.mpr hk] at hkept
      cases hkept
  · cases hscan

/-- **A token of a script is the same token on its own.** -/
theorem next_of_mem_scanScript (h : scanScript s = .ok ts) (ht : t ∈ ts) :
    scriptTable.next t.text = (t.kind, t.text.length) := by
  have hkept := kept_of_mem_scanScript h ht
  obtain ⟨a, b, -, -, -, hcut⟩ := Table.exists_of_mem_scanFrom (mapError_eq_ok_iff.mp h) ht
  have hnext : scriptTable.next (t.text ++ b) =
      (t.kind, (scriptTable.next (t.text ++ b)).2) := Prod.ext hcut.kind rfl
  have halone := next_take hnext hkept
  have hle := (next_le hnext fun hk => hkept (hk ▸ List.mem_cons_self)).2
  have hlength := congrArg List.length hcut.take
  rw [List.length_take, Nat.min_eq_left hle] at hlength
  rwa [hcut.take, hlength] at halone

end Tokens

/-! ## Numbers -/

section Numbers

variable {s : Text}

theorem splitSign_eq_drop (s : Text) : (splitSign s).2 = s.drop (signLength s) := by
  unfold splitSign
  split
  · rfl
  · rfl
  · next hminus hplus => rw [signLength.eq_3 s hplus hminus, List.drop_zero]

/-- A number with a point has digits around it, on one side at least. -/
theorem exists_point (h : Pattern.float s = some s.length) :
    ∃ whole places : Text, (splitSign s).2 = whole ++ '.' :: places ∧ '.' ∉ whole ∧
      (whole ++ places).allDigits = true := by
  rw [splitSign_eq_drop]
  unfold Pattern.float at h
  dsimp only at h
  split at h
  · next r hr =>
    have hlen := length_of_drop_eq_cons hr
    rw [← List.drop_drop] at hr
    generalize s.drop (signLength s) = t at h hr hlen ⊢
    split at h
    · cases h
    · next hdigits =>
      have hplaces : (r.takeWhile Char.isDigit).length = r.length := by
        have := Option.some.inj h
        unfold digitsLength at this hlen
        omega
      have hwhole : t.take (digitsLength t) = t.takeWhile Char.isDigit :=
        (List.prefix_iff_eq_take.mp (List.takeWhile_prefix _)).symm
      have hsplit : t = t.takeWhile Char.isDigit ++ '.' :: r := by
        rw [← hwhole, ← hr, List.take_append_drop]
      have hall : ∀ c ∈ t.takeWhile Char.isDigit, c.isDigit = true :=
        List.all_eq_true.mp List.all_takeWhile
      refine ⟨t.takeWhile Char.isDigit, r, hsplit, fun hmem => absurd (hall _ hmem) (by decide),
        allDigits_iff.mpr ⟨fun hnil => hdigits ?_, fun c hc => ?_⟩⟩
      · obtain ⟨hw, rfl⟩ := List.append_eq_nil_iff.mp hnil
        exact ⟨congrArg List.length hw, rfl⟩
      · rcases List.mem_append.mp hc with hc | hc
        · exact hall c hc
        · rw [← (List.takeWhile_prefix Char.isDigit).eq_of_length hplaces] at hc
          exact List.all_eq_true.mp List.all_takeWhile c hc
  · cases h

/-- **A number with a point is read**, in either format. -/
theorem exists_read? (h : Pattern.float s = some s.length) (fmt : FloatFormat) :
    ∃ x, BinaryFloat.read? fmt s = some x := by
  obtain ⟨whole, places, hsign, hpoint, hdigits⟩ := exists_point h
  rw [BinaryFloat.read?, hsign, Text.cut?_append '.' hpoint]
  exact ⟨_, if_pos (isNumeral_of_allDigits hdigits)⟩

/-- **A token with a point has bytes** at every width and without one. -/
theorem exists_floatBytes (h : scriptTable.next s = (.float, s.length)) (pad : Option Nat) :
    ∃ bs, floatBytes pad s = .ok bs := by
  have hmatch := match_of_next (List.mem_iff_getElem?.mpr ⟨3, rfl⟩) h
  obtain ⟨x, hx⟩ := exists_read? hmatch double
  obtain ⟨y, hy⟩ := exists_read? hmatch single
  simp only [floatBytes, hx, hy]
  by_cases hwide : pad.any (4 < ·) = true
  · rw [if_pos hwide]
    exact ⟨_, rfl⟩
  · rw [if_neg hwide]
    exact ⟨_, rfl⟩

/-- A text without a point is no number with one. -/
theorem next_ne_float (h : '.' ∉ s) : scriptTable.next s ≠ (.float, s.length) := by
  intro hnext
  have hmatch := match_of_next (List.mem_iff_getElem?.mpr ⟨3, rfl⟩) hnext
  rw [float_eq_none_of_not_mem h] at hmatch
  cases hmatch

theorem isNameChar_of_mem_take {c : Char} (h : c ∈ s.take (nameLength s)) :
    isNameChar c = true := by
  cases s with
  | nil => cases h
  | cons d s =>
    rw [nameLength] at h
    split at h
    · next hd =>
      have hrun : s.take (s.takeWhile isNameChar).length = s.takeWhile isNameChar :=
        (List.prefix_iff_eq_take.mp (List.takeWhile_prefix _)).symm
      rw [Nat.add_comm, List.take_succ_cons, hrun] at h
      rcases List.mem_cons.mp h with rfl | h
      · rw [isNameStart_iff] at hd
        rw [isNameChar_iff]
        omega
      · exact List.all_eq_true.mp List.all_takeWhile c h
    · cases h

/-- A definition of a width has no point. -/
theorem point_not_mem_of_sizeDefinition (h : Pattern.sizeDefinition s = some s.length) :
    '.' ∉ s := by
  unfold Pattern.sizeDefinition at h
  split at h
  · next s =>
    dsimp only at h
    split at h
    · next r hr =>
      split at h
      · cases h
      · have hlen := length_of_drop_eq_cons hr
        have hdigits : (r.takeWhile Char.isDigit).length = r.length := by
          have := Option.some.inj h
          rw [List.length_cons] at this
          unfold digitsLength at this
          omega
        rw [← List.take_append_drop (nameLength s) s, hr, List.mem_cons, List.mem_append,
          List.mem_cons]
        rintro (hc | hc | hc | hc)
        · cases hc
        · exact absurd (isNameChar_of_mem_take hc) (by decide)
        · cases hc
        · rw [← (List.takeWhile_prefix Char.isDigit).eq_of_length hdigits] at hc
          exact absurd (List.all_eq_true.mp List.all_takeWhile _ hc) (by decide)
    · cases h
  · cases h

end Numbers

/-! ## Faults -/

/-- A fault of the reader itself and not of a script: a token without a meaning, a number with a
point that is no number, or a body that ends within an escape. -/
def CompileFault.IsInternal : CompileFault → Prop
  | .strayToken _ _ => True
  | .invalidNumber text => scriptTable.next text = (.float, text.length)
  | .badString e => e = .badEscape ['\\']
  | _ => False

section Faults

variable {st : Settings} {define : Nat → Text → Except CompileError Bytes} {scope : Scope}
  {fault : CompileFault} {text : Text} {pad : Option Nat}

theorem not_isInternal_of_integerBytes {radix : Nat} {digits : Text} {negative : Bool}
    (hnext : scriptTable.next text ≠ (.float, text.length))
    (h : integerBytes pad text radix digits negative = .error fault) : ¬ fault.IsInternal := by
  unfold integerBytes at h
  split at h
  · obtain rfl := Except.error.inj h
    exact hnext
  · split at h
    · cases h
    · obtain rfl := Except.error.inj h
      exact id

theorem not_isInternal_of_stringBytes {encoding : Encoding}
    (h : stringBytes encoding text = .error fault) : ¬ fault.IsInternal := by
  unfold stringBytes at h
  split at h
  · next e he =>
    obtain rfl := Except.error.inj h
    exact fun hlone => unquote_ne_lone text (he.trans (congrArg Except.error hlone))
  · split at h
    · cases h
    · obtain rfl := Except.error.inj h
      exact id

theorem not_isInternal_of_padWidth (h : scope.padWidth text = .error fault) :
    ¬ fault.IsInternal := by
  unfold Scope.padWidth at h
  dsimp only at h
  split at h
  · cases h
  · split at h
    · next hdigits =>
      split at h
      · cases h
      · obtain rfl := Except.error.inj h
        exact next_ne_float fun hc => absurd ((allDigits_iff.mp hdigits).2 _ hc) (by decide)
    · split at h
      · cases h
      · obtain rfl := Except.error.inj h
        exact id

/-- **A token of a script has no fault of the reader**, unless it is a definition. -/
theorem not_isInternal_of_step {t : Token ScriptKind} {e : CompileError}
    (hkept : t.kind ∉ [ScriptKind.mismatch, .blank, .comment])
    (halone : scriptTable.next t.text = (t.kind, t.text.length)) (hkind : t.kind ≠ .definition)
    (h : scope.step st define t = .error e) : ¬ e.fault.IsInternal := by
  obtain ⟨-, hfault⟩ := faultAt_of_step h hkind
  have other : t.kind ≠ .float → scriptTable.next t.text ≠ (.float, t.text.length) :=
    fun hne hfloat => hne (congrArg Prod.fst (halone.symm.trans hfloat))
  generalize e.fault = fault at hfault ⊢
  cases hfault with
  | size hk =>
    rw [hk] at halone
    have hmatch := match_of_next (List.mem_iff_getElem?.mpr ⟨1, rfl⟩) halone
    exact next_ne_float fun hc =>
      point_not_mem_of_sizeDefinition hmatch (mem_of_mem_assignment hc)
  | pad _ hpad => exact not_isInternal_of_padWidth hpad
  | integer hk hbytes =>
    refine not_isInternal_of_integerBytes (other fun hfloat => ?_) hbytes
    exact absurd (hfloat ▸ hk) (by decide)
  | float hk hbytes =>
    rw [hk] at halone
    obtain ⟨bs, hbs⟩ := exists_floatBytes halone scope.pad
    cases hbs.symm.trans hbytes
  | string _ hbytes => exact not_isInternal_of_stringBytes hbytes
  | reference _ _ => exact id
  | stray hk => exact absurd hk hkept

/-! ## Scripts -/

/-- A script has no fault of the reader if its definitions have none. -/
theorem not_isInternal_of_runScript
    (hdefine : ∀ line s e, define line s = .error e → ¬ e.fault.IsInternal) {s : Text}
    {e : CompileError} (h : runScript st define s = .error e) : ¬ e.fault.IsInternal := by
  rw [runScript_eq_exec] at h
  rcases bind_eq_error_iff.mp h with h | ⟨ts, hts, h⟩
  · obtain ⟨u, -, rfl⟩ := exists_of_mapError_eq_error h
    exact id
  · obtain ⟨us, t, vs, q, rfl, -, hstep⟩ := exists_step_of_exec_eq_error (map_eq_error_iff.mp h)
    have hmem : t ∈ us ++ t :: vs := List.mem_append_right us List.mem_cons_self
    by_cases hkind : t.kind = .definition
    · exact hdefine _ _ e (define_of_step hkind hstep)
    · exact not_isInternal_of_step (kept_of_mem_scanScript hts hmem)
        (next_of_mem_scanScript hts hmem) hkind hstep

/-- **A script has no fault of the reader**, at any depth of its definitions. -/
theorem not_isInternal_of_compileWithin {depth : Nat} {s : Text} {e : CompileError}
    (h : compileWithin st depth s = .error e) : ¬ e.fault.IsInternal := by
  induction depth generalizing s e with
  | zero =>
    refine not_isInternal_of_runScript (fun line r e he => ?_) h
    obtain rfl := Except.error.inj he
    exact id
  | succ depth ih =>
    refine not_isInternal_of_runScript (fun line r e he => ?_) h
    obtain ⟨d, hd, rfl⟩ := exists_of_mapError_eq_error he
    change ¬ d.fault.IsInternal
    exact ih hd

end Faults

/-- **The errors that no script and no literal has.** Within any depth of definitions no script fails
over a token without a meaning, over a number with a point or over an escape that a body ends in: the
number in an error is never a token with a point of any script, for such tokens have bytes at every
width; and no text fails as a literal over a backslash alone. -/
theorem compile_faults :
    (∀ (st : Settings) (s : Text) (e : CompileError),
      compile st s = .error e ∨ (∃ depth, compileWithin st depth s = .error e) →
        (∀ kind text, e.fault ≠ .strayToken kind text) ∧
        (∀ text, e.fault = .invalidNumber text → ∀ r ts, scanScript r = .ok ts →
          ∀ t ∈ ts, t.kind = .float → t.text ≠ text) ∧
        e.fault ≠ .badString (.badEscape ['\\'])) ∧
    (∀ (s : Text) (ts : List (Token ScriptKind)), scanScript s = .ok ts →
      ∀ t ∈ ts, t.kind = .float → ∀ pad, ∃ bs, floatBytes pad t.text = .ok bs) ∧
    ∀ s : Text, unquote s ≠ .error (.badEscape ['\\']) := by
  have alone : ∀ {s ts}, scanScript s = .ok ts → ∀ t ∈ ts, t.kind = .float →
      scriptTable.next t.text = (.float, t.text.length) := by
    intro s ts hts t ht hkind
    rw [next_of_mem_scanScript hts ht, hkind]
  refine ⟨fun st s e h => ?_, fun s ts hts t ht hkind => exists_floatBytes (alone hts t ht hkind),
    unquote_ne_lone⟩
  have hfault : ¬ e.fault.IsInternal := by
    rcases h with h | ⟨depth, h⟩
    exacts [not_isInternal_of_compileWithin h, not_isInternal_of_compileWithin h]
  refine ⟨fun kind text heq => ?_, fun text heq r ts hts t ht hkind htext => ?_, fun heq => ?_⟩
  · exact hfault (heq ▸ trivial)
  · rw [heq] at hfault
    exact hfault (htext ▸ alone hts t ht hkind)
  · exact hfault (heq ▸ rfl)

end ByteScript
