import ByteScript.Highlight
import ByteScript.Proofs.Scan.Tiling
import ByteScript.Proofs.Script.Execution
import ByteScript.Proofs.Script.TokenAlone

/-!
# The styled ranges of a script

The ranges are those of the tokens of a tolerant scan that are no blanks, so they say of a script
what reading it strictly comes upon.

* `Token.span`, `Table.Tiles.highlight_eq`: the ranges of a script are those of its tokens;
* `isBlank_of_cutsOff`, `exists_char_of_cutsOff`: what no range shows and what one of its own style
  does;
* `Table.Tiles.find?_highlight`: the first range of an error is that of the first piece that no
  pattern takes;
* `Table.Tiles.exists_blank_of_outside`, `Table.Tiles.exists_error_iff`,
  `Table.Tiles.compile_eq_error`: what lies between the ranges, and what a range of an error says;
* **`highlight_agrees`**: ranges and errors of a script.
-/

namespace ByteScript

/-! ## Ranges and tokens -/

/-- The styled range of a token. -/
def Token.span (k : Token ScriptKind) : Span := ⟨k.kind.style, k.start, k.stop⟩

/-- The range is the place of a piece of a text, with at least one character. -/
def Span.IsIn (r : Span) (s : Text) : Prop :=
  ∃ a piece b : Text, s = a ++ (piece ++ b) ∧ piece ≠ [] ∧ r.start = a.utf8Size ∧
    r.stop = (a ++ piece).utf8Size

theorem utf8Size_pos {s : Text} (h : s ≠ []) : 0 < s.utf8Size := by
  obtain ⟨c, s, rfl⟩ := List.exists_cons_of_ne_nil h
  rw [Text.utf8Size_cons]
  exact Nat.add_pos_left c.utf8Size_pos _

namespace Span.IsIn

variable {r : Span} {s : Text} (h : r.IsIn s)

include h

theorem start_lt_stop : r.start < r.stop := by
  obtain ⟨a, piece, b, -, hne, hstart, hstop⟩ := h
  rw [hstart, hstop, Text.utf8Size_append]
  exact Nat.lt_add_of_pos_right (utf8Size_pos hne)

theorem stop_le : r.stop ≤ s.utf8Size := by
  obtain ⟨a, piece, b, rfl, -, -, hstop⟩ := h
  rw [hstop, ← List.append_assoc, Text.utf8Size_append (a ++ piece)]
  exact Nat.le_add_right _ _

end Span.IsIn

/-- A blank token holds blanks only. -/
theorem isBlank_of_cutsOff {a b : Text} (h : scriptTable.CutsOff .blank a b) {c : Char}
    (hc : c ∈ a) : isBlank c = true := by
  have hmatch : Pattern.many1 isBlank (a ++ b) = some a.length :=
    match_of_cutsOff (by simp [scriptTable]) h
  obtain ⟨-, hlength⟩ := many1_eq_some_iff.mp hmatch
  have hrun : (a ++ b).takeWhile isBlank = (a ++ b).take ((a ++ b).takeWhile isBlank).length :=
    List.prefix_iff_eq_take.mp (List.takeWhile_prefix isBlank)
  rw [hlength, List.take_left' rfl] at hrun
  rw [← hrun] at hc
  exact List.all_eq_true.mp List.all_takeWhile c hc

/-- What no pattern takes is one character. -/
theorem exists_char_of_cutsOff {a b : Text} (h : scriptTable.CutsOff .mismatch a b) :
    ∃ c, a = [c] := by
  have hkinds : ∀ e ∈ scriptTable.patterns, e.1 ≠ .mismatch := by decide
  rcases h.cases with ⟨e, he, hkind, -⟩ | ⟨-, hlength, -⟩
  · exact absurd hkind (hkinds e he)
  · exact List.length_eq_one_iff.mp hlength

namespace Table.Tiles

variable {s : Text} {ts : List (Token ScriptKind)} (h : scriptTable.Tiles 0 1 s ts)

include h

/-- The ranges of a script are those of its tokens that are no blanks. -/
theorem highlight_eq :
    highlight s = (ts.filter fun k => !([.blank] : List ScriptKind).contains k.kind).map
      Token.span := by
  have hscan : scriptTable.scan [.blank] false s = _ := h.scanFrom_tolerant [.blank]
  rw [highlight, hscan]
  rfl

theorem isIn_of_mem_highlight {r : Span} (hr : r ∈ highlight s) : r.IsIn s := by
  rw [h.highlight_eq] at hr
  obtain ⟨k, hk, rfl⟩ := List.mem_map.mp hr
  obtain ⟨a, b, hs, hstart, -, hcut⟩ := h.exists_of_mem (List.mem_of_mem_filter hk)
  rw [Nat.zero_add] at hstart
  refine ⟨a, k.text, b, hs, hcut.ne_nil, hstart, ?_⟩
  rw [Text.utf8Size_append, ← hstart]
  rfl

/-- The first range of an error is that of the first piece that no pattern takes. -/
theorem find?_highlight :
    (highlight s).find? (fun r => r.style == .error) =
      (ts.find? fun k => k.kind == scriptTable.mismatch).map Token.span := by
  rw [h.highlight_eq, List.find?_map, List.find?_filter]
  congr 2
  funext ⟨kind, text, start, line⟩
  cases kind <;> rfl

/-- What no range shows is blank. -/
theorem exists_blank_of_outside {i : Nat} (hi : i < s.utf8Size)
    (hout : ∀ r ∈ highlight s, ¬ (r.start ≤ i ∧ i < r.stop)) :
    ∃ (a : Text) (c : Char) (b : Text), s = a ++ c :: b ∧ a.utf8Size ≤ i ∧
      i < a.utf8Size + c.utf8Size ∧ isBlank c = true := by
  obtain ⟨k, hk, hin, a, c, b, hs, hc, ha, hi⟩ := h.exists_mem_at (Nat.zero_le i) (by omega)
  rw [Nat.zero_add] at ha hi
  obtain ⟨_, _, _, _, _, hcut⟩ := h.exists_of_mem hk
  by_cases hblank : k.kind = .blank
  · rw [hblank] at hcut
    exact ⟨a, c, b, hs, ha, hi, isBlank_of_cutsOff hcut hc⟩
  · -- a token that is no blank has a range
    have hmem : k.span ∈ highlight s := by
      rw [h.highlight_eq]
      exact List.mem_map_of_mem (List.mem_filter.mpr ⟨hk, by simpa using hblank⟩)
    exact absurd hin (hout _ hmem)

/-! ## Errors -/

theorem exists_error_iff (remove : List ScriptKind) :
    (∃ r ∈ highlight s, r.style = .error) ↔ ∃ e, scriptTable.scan remove true s = .error e := by
  have hsome : (∃ r ∈ highlight s, r.style = .error) ↔
      (ts.find? fun k => k.kind == scriptTable.mismatch).isSome := by
    rw [← Option.isSome_map (f := Token.span), ← h.find?_highlight, List.find?_isSome]
    simp
  have hscan : scriptTable.scan remove true s = _ := h.scanFrom_strict remove
  rw [hsome, hscan]
  cases ts.find? fun k => k.kind == scriptTable.mismatch with
  | none => exact iff_of_false Bool.false_ne_true fun ⟨_, he⟩ => nomatch he
  | some k => exact iff_of_true rfl ⟨_, rfl⟩

/-- A script does not compile because of the character of its first range of an error. -/
theorem compile_eq_error {r : Span}
    (hr : (highlight s).find? (fun r => r.style == .error) = some r) :
    ∃ (a : Text) (c : Char) (b : Text), s = a ++ c :: b ∧ r.start = a.utf8Size ∧
      r.stop = a.utf8Size + c.utf8Size ∧
      ∀ st, compile st s = .error ⟨1 + a.newlines, .unexpected [c] r.start⟩ := by
  rw [h.find?_highlight] at hr
  obtain ⟨k, hk, rfl⟩ := Option.map_eq_some_iff.mp hr
  obtain ⟨a, b, hs, hstart, hline, hcut⟩ := h.exists_of_mem (List.mem_of_find?_eq_some hk)
  have hkind : k.kind = scriptTable.mismatch := by simpa using List.find?_some hk
  rw [hkind] at hcut
  obtain ⟨c, hc⟩ := exists_char_of_cutsOff hcut
  rw [Nat.zero_add] at hstart
  rw [hc] at hs
  have hstop : scanScript s = .error ⟨1 + a.newlines, .unexpected [c] k.start⟩ := by
    have hscan : scriptTable.scan [.blank, .comment] true s = _ := h.scanFrom_strict _
    rw [scanScript, hscan, hk, ← hc, ← hline]
    rfl
  refine ⟨a, c, b, hs, hstart, ?_, fun st => ?_⟩
  · change k.start + k.text.utf8Size = _
    rw [hstart, hc, Text.utf8Size_cons, Text.utf8Size_nil, Nat.add_zero]
  · rw [compile_eq, hstop]
    rfl

end Table.Tiles

/-- **The ranges of a script show what reading it comes upon.** Each of them is the place of a piece
of the script, they are in order without an overlap, and every byte outside of them belongs to a
blank. Some range is that of an error exactly if a strict scan fails, whatever it leaves out; then
the script does not compile, because of the one character of the first such range. -/
theorem highlight_agrees (s : Text) :
    (∀ r ∈ highlight s, r.start < r.stop ∧ r.stop ≤ s.utf8Size ∧ r.IsIn s) ∧
    (highlight s).Pairwise (fun q r => q.stop ≤ r.start) ∧
    (∀ i < s.utf8Size, (∀ r ∈ highlight s, ¬ (r.start ≤ i ∧ i < r.stop)) →
      ∃ (a : Text) (c : Char) (b : Text), s = a ++ c :: b ∧ a.utf8Size ≤ i ∧
        i < a.utf8Size + c.utf8Size ∧ isBlank c = true) ∧
    (∀ remove, (∃ r ∈ highlight s, r.style = .error) ↔
      ∃ e, scriptTable.scan remove true s = .error e) ∧
    ∀ r, (highlight s).find? (fun r => r.style == .error) = some r →
      ∃ (a : Text) (c : Char) (b : Text), s = a ++ c :: b ∧ r.start = a.utf8Size ∧
        r.stop = a.utf8Size + c.utf8Size ∧
        ∀ st, compile st s = .error ⟨1 + a.newlines, .unexpected [c] r.start⟩ := by
  obtain ⟨ts, -, h⟩ := scriptTable.exists_tiles s 0 1
  refine ⟨fun r hr => ?_, ?_, fun i => h.exists_blank_of_outside, h.exists_error_iff,
    fun r => h.compile_eq_error⟩
  · have hin := h.isIn_of_mem_highlight hr
    exact ⟨hin.start_lt_stop, hin.stop_le, hin⟩
  · rw [h.highlight_eq]
    exact (h.pairwise.filter _).map _ fun j k hjk => hjk

/-- A letter of two bytes that no pattern takes, after a name that is not bound, and one more piece
of this kind behind it: the letter is the reason why the script does not compile, and no range shows
the space in front of it. -/
theorem highlight_agrees_letter :
    highlight "x /* */\n é?".toList =
      [⟨.variable, 0, 1⟩, ⟨.comment, 2, 7⟩, ⟨.error, 9, 11⟩, ⟨.error, 11, 12⟩] ∧
    (∃ e, scriptTable.scan [.mismatch] true "x /* */\n é?".toList = .error e) ∧
    (∃ line c, compile {} "x /* */\n é?".toList = .error ⟨line, .unexpected [c] 9⟩) ∧
    ∃ (a : Text) (c : Char) (b : Text), "x /* */\n é?".toList = a ++ c :: b ∧
      a.utf8Size ≤ 8 ∧ 8 < a.utf8Size + c.utf8Size ∧ isBlank c = true := by
  have hranges : highlight "x /* */\n é?".toList =
      [⟨.variable, 0, 1⟩, ⟨.comment, 2, 7⟩, ⟨.error, 9, 11⟩, ⟨.error, 11, 12⟩] := by
    decide +kernel
  obtain ⟨-, -, hblank, herror, hfirst⟩ := highlight_agrees "x /* */\n é?".toList
  rw [hranges] at hblank herror hfirst
  refine ⟨hranges, (herror _).mp ⟨⟨.error, 9, 11⟩, by decide, rfl⟩, ?_,
    hblank 8 (by decide) (by decide)⟩
  obtain ⟨a, c, b, -, -, -, hcompile⟩ := hfirst ⟨.error, 9, 11⟩ rfl
  exact ⟨1 + a.newlines, c, hcompile {}⟩

end ByteScript
