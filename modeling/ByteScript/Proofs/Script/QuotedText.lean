import ByteScript.Proofs.Scan.Tiling
import ByteScript.Proofs.Script.Execution

/-!
# Quoted texts in a script

The literal of a text is a token of its own in front of anything but a quotation mark, for every
scan, and it stands for the text.

* `cutsOff_quote`: the literal is cut off what follows it;
* `scan_quote_append`: the scan of a script that starts with it;
* **`quote_survives`**: its token, its value and its bytes.
-/

namespace ByteScript

variable {r : Text} (hr : r.head?.any isQuote = false)

include hr

/-- **The literal of a text is cut off** in front of anything but a quotation mark. -/
theorem cutsOff_quote (t : Text) : scriptTable.CutsOff .string (quote t) r :=
  Table.cutsOff_of_next (List.cons_ne_nil _ _) (next_quote t r hr)

/-- Every scan of a script that starts with the literal of a text gives the literal first, and what
it gives for the rest is the same as after any other text of this size without a line feed. -/
theorem scan_quote_append (remove : List ScriptKind) (strict : Bool) (t : Text) :
    scriptTable.scan remove strict (quote t ++ r) =
      (scriptTable.scanFrom remove strict (quote t).utf8Size 1 r).map fun ts =>
        if remove.contains .string then ts else ⟨.string, quote t, 0, 1⟩ :: ts := by
  have hlines : (quote t).newlines = 0 := List.count_eq_zero_of_not_mem (not_mem_quote t)
  have hkept : (ScriptKind.string == scriptTable.mismatch) = false := rfl
  rw [Table.scan, Table.scanFrom_append remove strict (cutsOff_quote hr t), hkept,
    Bool.and_false, if_neg Bool.false_ne_true, hlines, Nat.zero_add]

omit hr in
/-- **A quoted text survives in a script**: in front of a line feed the literal is the first token,
however the script goes on; it has the text as its value; and alone it compiles to the encoding of
the text, if there is one. -/
theorem quote_survives (t rest : Text) (st : Settings) :
    (∃ ts, scriptTable.scan [] false (quote t ++ '\n' :: rest) =
      .ok (⟨.string, quote t, 0, 1⟩ :: ts)) ∧
    (∀ remove strict, scriptTable.scan remove strict (quote t ++ '\n' :: rest) =
      (scriptTable.scanFrom remove strict (quote t).utf8Size 1 ('\n' :: rest)).map fun ts =>
        if remove.contains .string then ts else ⟨.string, quote t, 0, 1⟩ :: ts) ∧
    unquote (quote t) = .ok t ∧
    compile st (quote t) = match st.encoding.encode? t with
      | some bs => .ok bs
      | none => .error ⟨1, .unencodable st.encoding.name⟩ := by
  have hline : ('\n' :: rest).head?.any isQuote = false := rfl
  have hscan := fun remove strict => scan_quote_append hline remove strict t
  have hnext := next_quote t [] rfl
  rw [List.append_nil] at hnext
  refine ⟨?_, hscan, unquote_quote t,
    compile_string (List.cons_ne_nil _ _) hnext (unquote_quote t)⟩
  obtain ⟨ts, htiles, -⟩ := scriptTable.exists_tiles ('\n' :: rest) (quote t).utf8Size 1
  refine ⟨ts, (hscan [] false).trans ?_⟩
  rw [htiles]
  rfl

end ByteScript
