import ByteScript.Proofs.Script.Execution
import ByteScript.Proofs.Script.LetterCase

/-!
# The case of letters in names of widths

Scripts that differ at most in the case of letters in directives and in the names that sizes are
given to, in definitions as well, are the same script: they are cut into the same tokens up to such
names, and a scope keeps and finds these names in lower case.

* `SameButWidthNames`: such scripts; `SamePiece`, `SameToken`: their pieces and tokens;
* `SameButWidthNames.cut_induction`: induction over two such scripts, piece by piece;
* `scriptScan_alike`: their tokens;
* `padWidth_lower`: the width that a directive names; `SameToken.step_eq`: one token;
* **`compileWithin_widthNames`**, **`compile_widthNames`**: the bytes or the error.
-/

namespace ByteScript

/-! ## Scripts that differ in names of widths -/

/-- **The scripts differ at most in the case of letters in names of widths.** A script is taken apart
into the pieces that the scanner sees; directives and the names that sizes are given to may be
spelled with other cases, and the right-hand sides of definitions are scripts that may differ in the
same way. -/
inductive SameButWidthNames : Text → Text → Prop
  | nil : SameButWidthNames [] []
  | piece {k : ScriptKind} {a b b' : Text} (hcut : scriptTable.CutsOff k a b)
      (hrest : SameButWidthNames b b') : SameButWidthNames (a ++ b) (a ++ b')
  | pad {a a' b b' : Text} (hcut : scriptTable.CutsOff .pad a b) (hletters : a'.lower = a.lower)
      (hrest : SameButWidthNames b b') : SameButWidthNames (a ++ b) (a' ++ b')
  | sizeDefinition {name name' digits b b' : Text}
      (hcut : scriptTable.CutsOff .sizeDefinition ('@' :: (name ++ '=' :: digits)) b)
      (hident : IsIdentifier name) (hname : name'.lower = name.lower)
      (hrest : SameButWidthNames b b') :
      SameButWidthNames ('@' :: (name ++ '=' :: digits) ++ b) ('@' :: (name' ++ '=' :: digits) ++ b')
  | definition {name value value' b b' : Text}
      (hcut : scriptTable.CutsOff .definition ('$' :: (name ++ '=' :: value)) b)
      (hident : IsIdentifier name) (hvalue : SameButWidthNames value value')
      (hrest : SameButWidthNames b b') :
      SameButWidthNames ('$' :: (name ++ '=' :: value) ++ b) ('$' :: (name ++ '=' :: value') ++ b')

/-- The pieces of a kind differ at most in the case of letters in names of widths. -/
inductive SamePiece : ScriptKind → Text → Text → Prop
  | same (k : ScriptKind) (a : Text) : SamePiece k a a
  | pad {a a' : Text} (hletters : a'.lower = a.lower) : SamePiece .pad a a'
  | sizeDefinition {name name' : Text} (digits : Text) (hident : IsIdentifier name)
      (hname : name'.lower = name.lower) :
      SamePiece .sizeDefinition ('@' :: (name ++ '=' :: digits)) ('@' :: (name' ++ '=' :: digits))
  | definition {name value value' : Text} (hident : IsIdentifier name)
      (hvalue : SameButWidthNames value value') :
      SamePiece .definition ('$' :: (name ++ '=' :: value)) ('$' :: (name ++ '=' :: value'))

/-- The tokens stand in the same place and differ at most in the case of letters in names of
widths. -/
structure SameToken (t t' : Token ScriptKind) : Prop where
  kind : t'.kind = t.kind
  start : t'.start = t.start
  line : t'.line = t.line
  piece : SamePiece t.kind t.text t'.text

namespace SameButWidthNames

variable {s s' : Text}

/-- Every script is the same as itself. -/
theorem refl (s : Text) : SameButWidthNames s s := by
  induction s using scriptTable.cut_induction with
  | nil => exact .nil
  | append hcut ih => exact .piece hcut ih

theorem lower_eq (h : SameButWidthNames s s') : s'.lower = s.lower := by
  induction h with
  | nil => rfl
  | piece _ _ ih => rw [lower_append, lower_append, ih]
  | pad _ hletters _ ih => rw [lower_append, lower_append, hletters, ih]
  | sizeDefinition _ _ hname _ ih => simp only [lower_append, lower_cons, hname, ih]
  | definition _ _ _ _ hvalue ih => simp only [lower_append, lower_cons, hvalue, ih]

/-- **Induction over two such scripts**, piece by piece from their starts. -/
theorem cut_induction {motive : Text → Text → Prop} (nil : motive [] [])
    (append : ∀ {k : ScriptKind} {a a' b b' : Text}, scriptTable.CutsOff k a b →
      SamePiece k a a' → SameButWidthNames b b' → motive b b' → motive (a ++ b) (a' ++ b'))
    (h : SameButWidthNames s s') : motive s s' := by
  induction h with
  | nil => exact nil
  | piece hcut hrest ih => exact append hcut (.same _ _) hrest ih
  | pad hcut hletters hrest ih => exact append hcut (.pad hletters) hrest ih
  | sizeDefinition hcut hident hname hrest ih =>
    exact append hcut (.sizeDefinition _ hident hname) hrest ih
  | definition hcut hident hvalue hrest _ ih =>
    exact append hcut (.definition hident hvalue) hrest ih

end SameButWidthNames

theorem SamePiece.lower_eq {k : ScriptKind} {a a' : Text} (h : SamePiece k a a') :
    a'.lower = a.lower := by
  cases h with
  | same => rfl
  | pad hletters => exact hletters
  | sizeDefinition _ _ hname => simp only [lower_append, lower_cons, hname]
  | definition _ hvalue => simp only [lower_append, lower_cons, hvalue.lower_eq]

/-! ## Their tokens -/

/-- **Such scripts have the same tokens**, up to names of widths, or the same lexical error. -/
theorem scriptScan_alike {s s' : Text} (h : SameButWidthNames s s') (start line : Nat) :
    Alike (List.Forall₂ SameToken) (scriptScan start line s) (scriptScan start line s') := by
  refine h.cut_induction (motive := fun s s' => ∀ start line,
    Alike (List.Forall₂ SameToken) (scriptScan start line s) (scriptScan start line s')) ?_ ?_
    start line
  · intro start line
    rw [scriptScan_nil]
    exact .ok .nil
  · intro k a a' b b' hcut hpiece hrest ih start line
    have hcut' := hcut.of_lower_eq hpiece.lower_eq hrest.lower_eq
    have hsize : a'.utf8Size = a.utf8Size := by
      rw [← utf8Size_lower, hpiece.lower_eq, utf8Size_lower]
    have hlines : a'.newlines = a.newlines := by
      rw [← newlines_lower, hpiece.lower_eq, newlines_lower]
    rw [scriptScan, scriptScan, Table.scanFrom_append _ _ hcut, Table.scanFrom_append _ _ hcut',
      hsize, hlines]
    by_cases hk : k = .mismatch
    · subst hk
      cases hpiece
      exact .error _
    · have hgo : (true && k == scriptTable.mismatch) = false := beq_eq_false_iff_ne.mpr hk
      rw [hgo, if_neg Bool.false_ne_true, if_neg Bool.false_ne_true]
      refine (ih _ _).map fun ts ts' hts => ?_
      split
      · exact hts
      · exact .cons ⟨rfl, rfl, rfl, hpiece⟩ hts

/-! ## One token -/

section Step

variable {st : Settings} {define : Nat → Text → Except CompileError Bytes}

/-- A directive names the same width in lower case. -/
theorem padWidth_lower (scope : Scope) (s : Text) :
    scope.padWidth s.lower = scope.padWidth s := by
  have hspec : Text.trim (s.lower.drop 1).dropLast =
      Text.lower (Text.trim (s.drop 1).dropLast) := by
    rw [← lower_drop, ← lower_dropLast, trim_lower]
  unfold Scope.padWidth
  simp only [hspec]
  generalize Text.trim (s.drop 1).dropLast = spec
  have hstar : Text.lower spec = ['*'] ↔ spec = ['*'] := lower_eq_iff (by simp)
  by_cases hdigits : Text.allDigits spec = true
  · simp only [lower_of_allDigits hdigits]
  · simp only [hstar, allDigits_lower, hdigits, Bool.false_eq_true, if_false, lower_lower]

variable (hdefine : ∀ line v v', SameButWidthNames v v' → define line v' = define line v)

include hdefine

/-- **Such tokens have the same meaning**, where the right-hand sides of definitions do. -/
theorem SameToken.step_eq {t t' : Token ScriptKind} (h : SameToken t t') (scope : Scope) :
    scope.step st define t' = scope.step st define t := by
  obtain ⟨k, a, start, line⟩ := t
  obtain ⟨k', a', start', line'⟩ := t'
  obtain ⟨rfl, rfl, rfl, hpiece⟩ := h
  dsimp only at hpiece
  cases hpiece with
  | same => rfl
  | pad hletters =>
    have hwidth : scope.padWidth a' = scope.padWidth a := by
      rw [← padWidth_lower, hletters, padWidth_lower]
    simp only [Scope.step, hwidth]
  | sizeDefinition digits hident hname =>
    have hident' := isIdentifier_lower_iff.mp (hname ▸ isIdentifier_lower_iff.mpr hident)
    simp only [Scope.step, assignment_eq hident, assignment_eq hident', hname]
  | definition hident hvalue =>
    simp only [Scope.step, assignment_eq hident, hdefine _ _ _ hvalue]

theorem exec_widthNames {ts ts' : List (Token ScriptKind)} (h : List.Forall₂ SameToken ts ts')
    (scope : Scope) : scope.exec st define ts' = scope.exec st define ts := by
  induction h generalizing scope with
  | nil => rfl
  | cons ht _ ih =>
    rw [Scope.exec_cons, Scope.exec_cons, ht.step_eq hdefine]
    exact congrArg _ (funext fun p => by rw [ih])

theorem runScript_widthNames {s s' : Text} (h : SameButWidthNames s s') :
    runScript st define s' = runScript st define s := by
  rw [runScript_eq_exec, runScript_eq_exec, scanScript_eq, scanScript_eq]
  refine (((scriptScan_alike h 0 1).mapError _).bind_eq fun ts ts' hts => ?_).symm
  rw [exec_widthNames hdefine hts]

end Step

/-! ## Scripts -/

section Script

variable (st : Settings) {s s' : Text}

theorem compileWithin_widthNames (depth : Nat) (h : SameButWidthNames s s') :
    compileWithin st depth s' = compileWithin st depth s := by
  induction depth generalizing s s' with
  | zero =>
    rw [compileWithin_eq, compileWithin_eq]
    exact runScript_widthNames (fun _ _ _ _ => rfl) h
  | succ depth ih =>
    rw [compileWithin_eq, compileWithin_eq]
    refine runScript_widthNames (fun line v v' hv => ?_) h
    rw [defineWithin, defineWithin, ih hv]

/-- **The case of letters in names of widths does not matter**, at the top of a script and in
definitions at any depth: scripts that differ in nothing else have the same bytes or the same
error. -/
theorem compile_widthNames (h : SameButWidthNames s s') : compile st s' = compile st s :=
  compileWithin_widthNames st st.maxDepth h

end Script

/-- A size, a directive in a definition and one at the top of the script; then a name without a
width in a definition. -/
theorem compile_widthNames_nested :
    compile {} "@w=2\n$A=[Int]+1\n[w]+1 A".toList = compile {} "@W=2\n$A=[INT]+1\n[W]+1 A".toList ∧
      compile {} "@W=2\n$A=[INT]+1\n[W]+1 A".toList = .ok [0, 1, 0, 0, 0, 1] ∧
      compile {} "\n$A=[q]".toList = .error ⟨2, .unknownPad "q".toList⟩ := by
  have hsizes : SameButWidthNames
      ('@' :: (['W'] ++ '=' :: ['2']) ++ (['\n'] ++
        ('$' :: (['A'] ++ '=' :: (['[', 'I', 'N', 'T', ']'] ++ ['+', '1'])) ++ (['\n'] ++
          (['[', 'W', ']'] ++ ['+', '1', ' ', 'A'])))))
      ('@' :: (['w'] ++ '=' :: ['2']) ++ (['\n'] ++
        ('$' :: (['A'] ++ '=' :: (['[', 'I', 'n', 't', ']'] ++ ['+', '1'])) ++ (['\n'] ++
          (['[', 'w', ']'] ++ ['+', '1', ' ', 'A']))))) := by
    refine .sizeDefinition (Table.cutsOff_of_next (by decide) (by decide +kernel)) (by decide)
      (by decide) (.piece (Table.cutsOff_of_next (k := .blank) (by decide) (by decide +kernel)) ?_)
    refine .definition (Table.cutsOff_of_next (by decide) (by decide +kernel)) (by decide) ?_
      (.piece (Table.cutsOff_of_next (k := .blank) (by decide) (by decide +kernel)) ?_)
    · exact .pad (Table.cutsOff_of_next (by decide) (by decide +kernel)) (by decide) (.refl _)
    · exact .pad (Table.cutsOff_of_next (by decide) (by decide +kernel)) (by decide) (.refl _)
  have hunknown : SameButWidthNames
      (['\n'] ++ ('$' :: (['A'] ++ '=' :: (['[', 'Q', ']'] ++ [])) ++ []))
      (['\n'] ++ ('$' :: (['A'] ++ '=' :: (['[', 'q', ']'] ++ [])) ++ [])) := by
    refine .piece (Table.cutsOff_of_next (k := .blank) (by decide) (by decide +kernel)) ?_
    refine .definition (Table.cutsOff_of_next (by decide) (by decide +kernel)) (by decide) ?_ .nil
    exact .pad (Table.cutsOff_of_next (by decide) (by decide +kernel)) (by decide) .nil
  have herror : compile {} "\n$A=[Q]".toList = .error ⟨2, .unknownPad "q".toList⟩ := by
    decide +kernel
  exact ⟨compile_widthNames {} hsizes, by decide +kernel,
    (compile_widthNames {} hunknown).trans herror⟩

end ByteScript
