import ByteScript.Proofs.Script.Highlighting
import ByteScript.Proofs.Script.Independence

/-!
# Blanks and comments in front of a script

Text that is nothing but blanks and comments gives no tokens and takes none away, so a script after
it has the tokens that it has alone, further on. Blanks at its end become one with those of the
script, and a comment ends where it is closed. What is left of such text is its size: errors name a
line and, where the scan stops, an offset.

* `isFiller`: the text is cut into blanks and comments;
* `scriptScan_filler_piece`, **`scriptScan_filler`**: the scan of what follows;
* **`compile_filler_append`**: a script with such text in front of it.
-/

namespace ByteScript

/-- A strict scan of the text gives blanks and comments only. -/
def isFiller (w : Text) : Bool :=
  match scriptTable.scan [] true w with
  | .ok ts => ts.all fun t => t.kind == .blank || t.kind == .comment
  | .error _ => false

example : isFiller " /* a */ \n".toList = true ∧ isFiller "/* a".toList = false := by
  decide +kernel

/-- The pieces of such a text. -/
theorem exists_tiles_of_isFiller {w : Text} (hw : isFiller w = true) :
    ∃ ts, scriptTable.Tiles 0 1 w ts ∧ ∀ t ∈ ts, t.kind = .blank ∨ t.kind = .comment := by
  obtain ⟨ts, -, htiles⟩ := scriptTable.exists_tiles w 0 1
  have hkept : (ts.filter fun t => !([] : List ScriptKind).contains t.kind) = ts := by simp
  rw [isFiller, Table.scan, htiles.scanFrom_strict, hkept] at hw
  refine ⟨ts, htiles, ?_⟩
  split at hw
  · rename_i us hus
    split at hus
    · obtain rfl := Except.ok.inj hus
      simpa using hw
    · cases hus
  · cases hw

/-! ## Scanning -/

/-- A blank or a comment is passed over, whatever follows the text that it is cut off. -/
theorem scriptScan_filler_piece {k : ScriptKind} (hk : k = .blank ∨ k = .comment) {a b : Text}
    (hcut : scriptTable.CutsOff k a b) (start line : Nat) (r : Text) :
    scriptScan start line (a ++ (b ++ r)) =
      scriptScan (start + a.utf8Size) (line + a.newlines) (b ++ r) := by
  rcases hk with rfl | rfl
  · -- blanks may run on into what follows, so the piece need not be a token there
    obtain ⟨ts, hts, hscan⟩ := Scans.blanks (fun c => isBlank_of_cutsOff hcut) start line (b ++ r)
    rw [hscan, List.map_eq_nil_iff.mp hts]
    cases scriptScan (start + a.utf8Size) (line + a.newlines) (b ++ r) <;> rfl
  · have hmatch : Pattern.comment (a ++ b) = some a.length :=
      match_of_cutsOff (by simp [scriptTable]) hcut
    have hlong := comment_append hmatch r
    rw [List.append_assoc] at hlong
    have hnext : scriptTable.next (a ++ (b ++ r)) = (.comment, a.length) := by
      obtain ⟨c, a, rfl⟩ := List.exists_cons_of_ne_nil hcut.ne_nil
      have hslash : c = '/' := by
        by_contra hne
        have hnone : Pattern.comment (c :: (a ++ (b ++ r))) = none :=
          comment_eq_none (beq_eq_false_iff_ne.mpr hne)
        rw [List.cons_append, hnone] at hlong
        cases hlong
      exact next_of_isMarkOf (Or.inr (Or.inr ⟨hslash, rfl⟩)) rfl hlong
    rw [scriptScan_token hcut.ne_nil hnext (by decide)]
    cases scriptScan (start + a.utf8Size) (line + a.newlines) (b ++ r) <;> rfl

/-- **Text of blanks and comments is passed over**, whatever follows it. -/
theorem scriptScan_filler {start line : Nat} {w : Text} {ts : List (Token ScriptKind)}
    (h : scriptTable.Tiles start line w ts) (hkinds : ∀ t ∈ ts, t.kind = .blank ∨ t.kind = .comment)
    (r : Text) :
    scriptScan start line (w ++ r) = scriptScan (start + w.utf8Size) (line + w.newlines) r := by
  induction h with
  | nil start line => rfl
  | @cons k a b start line ts hcut _ ih =>
    have hrest := ih fun t ht => hkinds t (List.mem_cons_of_mem _ ht)
    rw [List.append_assoc, scriptScan_filler_piece (hkinds _ List.mem_cons_self) hcut, hrest,
      Text.utf8Size_append, Text.newlines_append, Nat.add_assoc, Nat.add_assoc]

theorem scanScript_filler_append {w : Text} (hw : isFiller w = true) (s : Text) :
    scanScript (w ++ s) =
      ((scanScript s).mapError (CompileError.move w.utf8Size w.newlines)).map
        (List.map (Token.move w.utf8Size w.newlines)) := by
  obtain ⟨ts, htiles, hkinds⟩ := exists_tiles_of_isFiller hw
  rw [← scanScript_move, ← scriptScan_filler htiles hkinds]
  rfl

/-! ## Compiling -/

/-- **Blanks and comments in front of a script** change nothing but the places in its errors: a
script that compiles has the same bytes, and one that does not has the same error, as many lines
further down as there are lines in front of it. Where the scan of the script itself stops, its offset
is further on by the bytes in front; an offset in the right-hand side of a definition stays. -/
theorem compile_filler_append (st : Settings) {w : Text} (hw : isFiller w = true) (s : Text) :
    compile st (w ++ s) = match compile st s with
      | .ok bs => .ok bs
      | .error e => .error (if (scanScript s).isOk then e.shift w.newlines
          else e.move w.utf8Size w.newlines) := by
  have hroot : (Scope.root st).exec st (defineWithin st st.maxDepth) [] =
      .ok (Scope.root st, []) := rfl
  rw [compile_of_scanScript_append (scanScript_filler_append hw s) hroot, compile_eq]
  cases scanScript s with
  | error e => rfl
  | ok us =>
    change ((((Scope.root st).exec st _ us).map Prod.snd).mapError _).map _ =
      match ((Scope.root st).exec st _ us).map Prod.snd with
      | .ok bs => Except.ok bs
      | .error e => .error (e.shift w.newlines)
    cases (Scope.root st).exec st (defineWithin st st.maxDepth) us <;> rfl

/-- A comment over two lines and a blank, in front of a script that compiles, of a name that is not
bound, of a character that starts no token and of such a character in a definition. -/
theorem compile_filler_append_comment :
    let w := "/* a\n */\n ".toList
    compile {} (w ++ " 'x'".toList) = .ok [120] ∧
    compile {} (w ++ "\nB".toList) = .error ⟨4, .undefinedVariable "B".toList⟩ ∧
    compile {} (w ++ "+1 ?".toList) = .error ⟨3, .unexpected "?".toList 13⟩ ∧
    compile {} (w ++ "$A=+1 ?".toList) = .error ⟨3, .unexpected "?".toList 3⟩ := by
  intro w
  have happend := fun s => @compile_filler_append {} w (by decide +kernel) s
  refine ⟨?_, ?_, ?_, ?_⟩
  · rw [happend]
    decide +kernel
  · rw [happend]
    decide +kernel
  · rw [happend]
    decide +kernel
  · rw [happend]
    decide +kernel

end ByteScript
