import ByteScript.Proofs.Script.Agreement
import ByteScript.Proofs.Script.Continuation

/-!
# Parts of a script that do not depend on each other

Whatever stands on the right-hand side of a definition, its line has no effect on a script but for
the name that it binds. A script without directives leaves nothing but names behind, so another one
that compiles alone compiles after it.

* `CompileError.move`: an error further on; `scanScript_append`, `scanScript_definition_append`:
  what a script, or the line of a definition, in front of a script does to its tokens;
* `compile_of_scanScript_append`, `compile_append_eq`: a script after other tokens, and after one
  that compiles, in terms of its own places;
* `referredNames`, **`compile_insert_definition`**: the line of a definition that is not referred to;
* `hasDirective`, **`compile_join`**: scripts one after the other.
-/

namespace ByteScript

/-! ## Places in a longer script -/

/-- The error in a script that starts so many bytes and lines further on. The offset of a piece
that no pattern takes is counted in the whole script. -/
def CompileError.move (bytes lines : Nat) (e : CompileError) : CompileError :=
  match e.fault with
  | .unexpected text offset => ⟨e.line + lines, .unexpected text (offset + bytes)⟩
  | _ => e.shift lines

theorem CompileError.move_move (a b c d : Nat) (e : CompileError) :
    (e.move a b).move c d = e.move (a + c) (b + d) := by
  obtain ⟨line, fault⟩ := e
  cases fault <;> simp [CompileError.move, CompileError.shift, Nat.add_assoc]

theorem scanScript_move (bytes lines : Nat) (s : Text) :
    ((scriptScan (0 + bytes) (1 + lines) s).mapError fun e =>
        CompileError.mk e.line (.unexpected e.text e.offset)) =
      ((scanScript s).mapError (CompileError.move bytes lines)).map
        (List.map (Token.move bytes lines)) := by
  rw [scriptScan, scanFrom_move, scanScript, Table.scan]
  cases scriptTable.scanFrom [.blank, .comment] true 0 1 s <;> rfl

/-- A script that scans, in front of another one: the tokens of the second are further on. -/
theorem scanScript_append {s r : Text} (hend : LineEndsBetween s r) {ts : List (Token ScriptKind)}
    (hts : scanScript s = .ok ts)
    (hvalue : ∀ t ∈ ts, t.kind = .string → ∃ v, unquote t.text = .ok v) :
    scanScript (s ++ r) =
      ((scanScript r).mapError (CompileError.move s.utf8Size s.newlines)).map fun us =>
        ts ++ us.map (Token.move s.utf8Size s.newlines) := by
  have hscan := scriptScan_append hend (scanScript_eq_ok_iff.mp hts) hvalue
  have hmove := scanScript_move s.utf8Size s.newlines r
  unfold scriptScan at hscan hmove
  rw [scanScript, Table.scan, hscan, mapError_map, hmove]
  cases scanScript r <;> rfl

/-- A line feed at the end of a script adds no token. -/
theorem scanScript_append_lineFeed {s : Text} {ts : List (Token ScriptKind)}
    (hts : scanScript s = .ok ts)
    (hvalue : ∀ t ∈ ts, t.kind = .string → ∃ v, unquote t.text = .ok v) :
    scanScript (s ++ ['\n']) = .ok ts := by
  have hblank : scanScript ['\n'] = .ok [] := by decide +kernel
  rw [scanScript_append (.lineFeed s []) hts hvalue, hblank]
  exact congrArg Except.ok (List.append_nil ts)

/-- Tokens are on the first line of a script or further down. -/
theorem one_le_line {s : Text} {ts : List (Token ScriptKind)} (hts : scanScript s = .ok ts)
    {t : Token ScriptKind} (ht : t ∈ ts) : 1 ≤ t.line := by
  obtain ⟨a, b, _, _, hrow⟩ := standsIn_of_scanFrom (scanScript_eq_ok_iff.mp hts) ht
  omega

section After

variable {st : Settings} {p : Text} {ts : List (Token ScriptKind)} {q : Scope × Bytes}

/-- A script whose tokens come after those of another text: they are read in the scope that the
first ones leave, and their errors are as far further on. -/
theorem compile_of_scanScript_append {s : Text} (hscan : scanScript (p ++ s) =
      ((scanScript s).mapError (CompileError.move p.utf8Size p.newlines)).map fun us =>
        ts ++ us.map (Token.move p.utf8Size p.newlines))
    (hq : (Scope.root st).exec st (defineWithin st st.maxDepth) ts = .ok q) :
    compile st (p ++ s) =
      ((scanScript s).mapError (CompileError.move p.utf8Size p.newlines)).bind fun us =>
        (((q.1.exec st (defineWithin st st.maxDepth) us).map Prod.snd).mapError
          (CompileError.shift p.newlines)).map (q.2 ++ ·) := by
  rw [compile_eq, hscan]
  cases hus : scanScript s with
  | error e => rfl
  | ok us =>
    have hmove := @exec_move st (defineWithin st st.maxDepth) p.utf8Size p.newlines us q.1
      fun t ht s => defineWithin_add st.maxDepth (one_le_line hus ht) s
    change ((Scope.root st).exec st _ (ts ++ us.map _)).map _ =
      (((q.1.exec st _ us).map Prod.snd).mapError _).map _
    rw [Scope.exec_append, hq]
    change ((q.1.exec st _ (us.map _)).map _).map _ = _
    rw [hmove]
    cases q.1.exec st (defineWithin st st.maxDepth) us <;> rfl

/-- **A script after one that compiles**: its tokens are read in the scope that the first one
leaves, and its errors are as far further on. -/
theorem compile_append_eq (hend : p = [] ∨ EndsLine p) (hts : scanScript p = .ok ts)
    (hq : (Scope.root st).exec st (defineWithin st st.maxDepth) ts = .ok q) (s : Text) :
    compile st (p ++ s) =
      ((scanScript s).mapError (CompileError.move p.utf8Size p.newlines)).bind fun us =>
        (((q.1.exec st (defineWithin st st.maxDepth) us).map Prod.snd).mapError
          (CompileError.shift p.newlines)).map (q.2 ++ ·) :=
  compile_of_scanScript_append (scanScript_append (.of_endsLine hend s) hts
    fun _ ht hkind => exists_unquote_of_exec hq ht hkind) hq

end After

/-! ## A definition that is not referred to -/

/-- The line of a definition. -/
def definitionLine (name value : Text) : Text := '$' :: (name ++ '=' :: value) ++ ['\n']

/-- The names that a script refers to, right-hand sides of definitions apart. -/
def referredNames (s : Text) : List Text :=
  match scanScript s with
  | .ok ts => (ts.filter fun t => t.kind == .reference).map Token.referent
  | .error _ => []

example : referredNames "$A=B\nA 'C' $D".toList = ["A".toList, "D".toList] := by decide +kernel

theorem mem_referredNames {s : Text} {ts : List (Token ScriptKind)} (hts : scanScript s = .ok ts)
    {t : Token ScriptKind} (ht : t ∈ ts) (hkind : t.kind = .reference) :
    t.referent ∈ referredNames s := by
  rw [referredNames, hts]
  exact List.mem_map_of_mem (List.mem_filter.mpr ⟨ht, beq_iff_eq.mpr hkind⟩)

section Insertion

variable {st : Settings} {name value : Text}

theorem newlines_definitionLine (hname : IsIdentifier name) (hvalue : '\n' ∉ value) :
    Text.newlines (definitionLine name value) = 1 := by
  have hnot : '\n' ∉ name := fun h => absurd (hname.2 _ h) (by decide)
  simp [definitionLine, Text.newlines, List.count_eq_zero_of_not_mem, hnot, hvalue]

theorem scanScript_definition_append (hname : IsIdentifier name) (hvalue : '\n' ∉ value)
    (s : Text) : scanScript (definitionLine name value ++ s) =
      ((scanScript s).mapError (CompileError.move (definitionLine name value).utf8Size 1)).map
        fun us => ⟨.definition, '$' :: (name ++ '=' :: value), 0, 1⟩ ::
          us.map (Token.move (definitionLine name value).utf8Size 1) := by
  have hscan := scriptScan_lexeme (by decide) (isLexeme_definition hname hvalue) 0 1 s
  have hmove := scanScript_move (definitionLine name value).utf8Size 1 s
  have hlines := newlines_definitionLine hname hvalue
  unfold definitionLine at hlines hmove ⊢
  rw [hlines] at hscan
  rw [scanScript, Table.scan]
  unfold scriptScan at hscan hmove
  rw [hscan, mapError_map, hmove]
  cases scanScript s <;> rfl

/-- Tokens behind a definition that they do not refer to have the same outcome one line further
down. -/
theorem exec_insert_definition {define : Nat → Text → Except CompileError Bytes}
    (hname : IsIdentifier name) {y : Bytes} (hright : define 1 value = .ok y) (bytes : Nat)
    {us : List (Token ScriptKind)} (hlines : ∀ t ∈ us, ∀ s,
      define (t.line + 1) s = (define t.line s).mapError (CompileError.shift 1))
    (hfree : ∀ t ∈ us, t.kind = .reference → t.referent ≠ name) (scope : Scope) :
    (scope.exec st define (⟨.definition, '$' :: (name ++ '=' :: value), 0, 1⟩ ::
        us.map (Token.move bytes 1))).map Prod.snd =
      ((scope.exec st define us).map Prod.snd).mapError (CompileError.shift 1) := by
  let bound : Scope := { scope with symbols := (name, y) :: scope.symbols }
  have hstep : scope.step st define ⟨.definition, '$' :: (name ++ '=' :: value), 0, 1⟩ =
      .ok (bound, []) := by
    rw [Scope.step, assignment_eq hname, hright]
    rfl
  have hagree : Scope.AgreesOn (· ≠ name) bound scope :=
    ⟨rfl, rfl, fun n hn => by rw [List.lookup_cons, beq_eq_false_iff_ne.mpr hn]⟩
  have hsame := (@exec_agreesOn st define _ _ _ us hagree fun vs t ws hts hkind =>
    Or.inr (hfree t (hts ▸ List.mem_append_right _ List.mem_cons_self) hkind)).map_snd
  rw [Scope.exec_cons, hstep]
  change ((bound.exec st define (us.map _)).map _).map Prod.snd = _
  rw [exec_move bound hlines, ← hsame]
  cases bound.exec st define us <;> rfl

/-- **The line of a definition that is not referred to** has no effect: whatever its right-hand side
binds, sets or gives, the script around it has the same bytes, or the same error one line further
down, and further on by the bytes of the line where the scan stops. -/
theorem compile_insert_definition {p : Text} {x : Bytes} (hp : compile st p = .ok x)
    (hend : p = [] ∨ EndsLine p) (hname : IsIdentifier name) (hvalue : '\n' ∉ value)
    (hdepth : 1 ≤ st.maxDepth) {y : Bytes}
    (hright : compile { st with maxDepth := st.maxDepth - 1 } value = .ok y) {q : Text}
    (hfree : name ∉ referredNames q) :
    compile st (p ++ (definitionLine name value ++ q)) =
      match compile st (p ++ q) with
      | .ok bs => .ok bs
      | .error e => .error (if (scanScript (p ++ q)).isOk then e.shift 1
          else e.move (definitionLine name value).utf8Size 1) := by
  obtain ⟨ts, after, hts, hafter, rfl⟩ := exists_exec_of_compile hp
  have hstrings : ∀ t ∈ ts, t.kind = .string → ∃ v, unquote t.text = .ok v :=
    fun t ht hkind => exists_unquote_of_exec hafter ht hkind
  rw [compile_append_eq hend hts hafter, compile_append_eq hend hts hafter,
    scanScript_definition_append hname hvalue, scanScript_append (.of_endsLine hend q) hts hstrings]
  cases hus : scanScript q with
  | error e =>
    refine congrArg Except.error ?_
    change (e.move _ 1).move _ _ = (e.move _ _).move _ 1
    rw [CompileError.move_move, CompileError.move_move, Nat.add_comm, Nat.add_comm 1]
  | ok us =>
    have hdefine : defineWithin st st.maxDepth 1 value = .ok y := by
      rw [defineWithin_eq hdepth, hright]
      rfl
    have hsame := @exec_insert_definition st _ _ _ hname _ hdefine
      (definitionLine name value).utf8Size us
      (fun t ht s => defineWithin_add st.maxDepth (one_le_line hus ht) s)
      (fun t ht hkind hname => hfree (hname ▸ mem_referredNames hus ht hkind)) after.1
    change (((after.1.exec st _ (_ :: us.map _)).map Prod.snd).mapError _).map _ =
      match (((after.1.exec st _ us).map Prod.snd).mapError (CompileError.shift p.newlines)).map
        (after.2 ++ ·) with
      | .ok bs => .ok bs
      | .error e => .error (e.shift 1)
    rw [hsame]
    cases after.1.exec st (defineWithin st st.maxDepth) us with
    | ok r => rfl
    | error e =>
      refine congrArg Except.error ?_
      rw [CompileError.shift_shift, CompileError.shift_shift, Nat.add_comm]

/-- What a definition binds and sets on its right-hand side is not there after it: the width `W` is
still the one in front of it and `C` is undefined. -/
theorem compile_insert_definition_local :
    let line := definitionLine "B".toList "[1] @W=9 $C=#FF".toList
    compile {} (widePrefix ++ (line ++ "A [W] +7".toList)) =
      .ok [0, 1, 0, 0, 1, 2, 0, 0, 1, 2, 0, 7] ∧
    compile {} (widePrefix ++ (line ++ "A\nC".toList)) =
      .error ⟨6, .undefinedVariable "C".toList⟩ ∧
    compile {} (widePrefix ++ (line ++ "B ?".toList)) = .error ⟨5, .unexpected "?".toList 48⟩ := by
  have hp : compile {} widePrefix = .ok [0, 1, 0, 0, 1, 2] := by decide +kernel
  have hend : widePrefix = [] ∨ EndsLine widePrefix := Or.inr ⟨widePrefix.dropLast, by decide⟩
  have hright : compile { maxDepth := 63 } "[1] @W=9 $C=#FF".toList = .ok [] := by decide +kernel
  have hinsert : ∀ q, "B".toList ∉ referredNames q → _ := fun q hfree =>
    @compile_insert_definition {} "B".toList _ widePrefix _ hp hend (by decide) (by decide)
      (by decide) _ hright q hfree
  refine ⟨?_, ?_, ?_⟩
  · rw [hinsert _ (by decide +kernel)]
    decide +kernel
  · rw [hinsert _ (by decide +kernel)]
    decide +kernel
  · rw [hinsert _ (by decide +kernel)]
    decide +kernel

end Insertion

/-! ## Scripts one after the other -/

/-- A script sets the width of numbers or binds a name to one, right-hand sides of definitions
apart. -/
def hasDirective (s : Text) : Bool :=
  match scanScript s with
  | .ok ts => ts.any fun t => t.kind == .pad || t.kind == .sizeDefinition
  | .error _ => false

theorem kind_of_hasDirective {s : Text} {ts : List (Token ScriptKind)} (hts : scanScript s = .ok ts)
    (h : hasDirective s = false) {t : Token ScriptKind} (ht : t ∈ ts) :
    t.kind ≠ .pad ∧ t.kind ≠ .sizeDefinition := by
  rw [hasDirective, hts] at h
  simpa using List.any_eq_false.mp h t ht

section Join

variable {st : Settings} {define : Nat → Text → Except CompileError Bytes} {scope : Scope}

/-- Tokens without directives leave the widths as they are. -/
theorem widths_of_step {t : Token ScriptKind} (hkind : t.kind ≠ .pad ∧ t.kind ≠ .sizeDefinition)
    {p : Scope × Bytes} (h : scope.step st define t = .ok p) :
    p.1.padWidths = scope.padWidths ∧ p.1.pad = scope.pad := by
  rcases scope_of_step h with ⟨-, bs, hp⟩ | ⟨hk, -⟩ | ⟨hk, -⟩ | ⟨-, -, -, hp⟩
  · rw [hp]
    exact ⟨rfl, rfl⟩
  · exact absurd hk hkind.2
  · exact absurd hk hkind.1
  · rw [hp]
    exact ⟨rfl, rfl⟩

theorem widths_of_exec {ts : List (Token ScriptKind)}
    (hkind : ∀ {t}, t ∈ ts → t.kind ≠ .pad ∧ t.kind ≠ .sizeDefinition) {p : Scope × Bytes}
    (h : scope.exec st define ts = .ok p) :
    p.1.padWidths = scope.padWidths ∧ p.1.pad = scope.pad := by
  induction ts generalizing scope p with
  | nil =>
    obtain rfl := Except.ok.inj h
    exact ⟨rfl, rfl⟩
  | cons t ts ih =>
    rw [Scope.exec_cons] at h
    obtain ⟨q, hq, h⟩ := exists_of_bind_eq_ok h
    obtain ⟨r, hr, rfl⟩ := exists_of_map_eq_ok h
    obtain ⟨hwidths, hpad⟩ := ih (fun hu => hkind (List.mem_cons_of_mem t hu)) hr
    obtain ⟨hwidths', hpad'⟩ := widths_of_step (hkind List.mem_cons_self) hq
    exact ⟨hwidths.trans hwidths', hpad.trans hpad'⟩

/-- **Scripts one after the other**, with a line feed between them: if the first one has no
directive and both compile alone, they give their bytes one after the other. -/
theorem compile_join {a b : Text} {x y : Bytes} (ha : compile st a = .ok x)
    (hdirective : hasDirective a = false) (hb : compile st b = .ok y) :
    compile st (a ++ '\n' :: b) = .ok (x ++ y) := by
  obtain ⟨ts, after, hts, hafter, rfl⟩ := exists_exec_of_compile ha
  obtain ⟨us, last, hus, hlast, rfl⟩ := exists_exec_of_compile hb
  have hline := scanScript_append_lineFeed hts fun t ht hkind =>
    exists_unquote_of_exec hafter ht hkind
  obtain ⟨hnamed, hpad⟩ := widths_of_exec (kind_of_hasDirective hts hdirective) hafter
  have hagree : Scope.AgreesOn (fun _ => False) (Scope.root st) after.1 :=
    ⟨hnamed.symm, hpad.symm, nofun⟩
  have hsame := (@exec_agreesOn st (defineWithin st st.maxDepth) _ _ _ us hagree
    fun vs t ws hsplit hkind => (mem_names_of_exec_append (hsplit ▸ hlast) hkind).imp_right
      List.not_mem_nil).map_snd
  rw [hlast] at hsame
  rw [List.append_cons, compile_append_eq (Or.inr ⟨a, rfl⟩) hline hafter, hus]
  change (((after.1.exec st _ us).map Prod.snd).mapError _).map _ = _
  rw [← hsame]
  rfl

/-- A run of binary digits ends at the line feed between the scripts, and the second one binds its
own `A`. -/
theorem compile_join_names :
    compile {} ("$A=+1\nA 'x' 01 ".toList ++ '\n' :: "1 [2] #07 $A=#02\nA".toList) =
      .ok ([0, 0, 0, 1, 120, 0, 0, 0, 1] ++ [0, 0, 0, 1, 0, 7, 0, 0, 0, 2]) :=
  compile_join (by decide +kernel) (by decide +kernel) (by decide +kernel)

end Join

end ByteScript
