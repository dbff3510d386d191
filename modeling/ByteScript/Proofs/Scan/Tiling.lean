import ByteScript.Proofs.Scan.Cut
import ByteScript.Scan.WordTable

/-!
# The tokens of a text

A tolerant scan that leaves nothing out cuts the whole text into tokens, one after the other. All
other scans of the text follow from these tokens: a tolerant one leaves some of them out, and a
strict one does so too unless there is a piece that no pattern takes, where it stops.

* `Table.Tiles`: the tokens of a text, piece by piece; `Table.exists_tiles`: there are some;
* `Table.Tiles.flatMap_text`, `Table.Tiles.starts`, `Table.Tiles.exists_of_mem`: their texts, where
  they start and stop, and what each of them is;
* `Table.Tiles.pairwise`, `Table.Tiles.exists_mem_at`: no two tokens overlap, and every byte is in
  one;
* **`exists_scan_tiles`**: every table cuts every text into tokens without a gap;
* `Table.Tiles.scanFrom_tolerant`, `Table.Tiles.scanFrom_strict`: other scans of the text;
  `Table.CutsOff.scan_tolerant`: the token at its start; `Table.exists_of_mem_scanFrom`: what each
  token of any scan is;
* **`scan_eq_of_tolerant`**: all scans by the tokens of the tolerant one.
-/

namespace ByteScript

/-- Every byte of a text belongs to one of its characters. -/
theorem Text.exists_char_at {s : Text} {i : Nat} (hi : i < s.utf8Size) :
    ∃ (a : Text) (c : Char) (b : Text), s = a ++ c :: b ∧ a.utf8Size ≤ i ∧
      i < a.utf8Size + c.utf8Size := by
  induction s generalizing i with
  | nil => exact absurd hi i.not_lt_zero
  | cons c s ih =>
    rw [utf8Size_cons] at hi
    by_cases hc : i < c.utf8Size
    · exact ⟨[], c, s, rfl, Nat.zero_le i, by simpa using hc⟩
    · obtain ⟨a, d, b, rfl, ha, hd⟩ := ih (i := i - c.utf8Size) (by omega)
      refine ⟨c :: a, d, b, rfl, ?_, ?_⟩ <;>
      · rw [utf8Size_cons]
        omega

variable {κ : Type}

/-- The tokens are the pieces of a text that starts at an offset and on a line, in order. -/
inductive Table.Tiles (t : Table κ) : (start line : Nat) → Text → List (Token κ) → Prop
  | nil (start line : Nat) : t.Tiles start line [] []
  | cons {k : κ} {a b : Text} {start line : Nat} {ts : List (Token κ)} (hcut : t.CutsOff k a b)
      (hrest : t.Tiles (start + a.utf8Size) (line + a.newlines) b ts) :
      t.Tiles start line (a ++ b) (⟨k, a, start, line⟩ :: ts)

namespace Table

variable {t : Table κ}

/-! ## All tokens -/

variable (t) in
/-- A text has tokens, which a tolerant scan gives. -/
theorem exists_tiles [BEq κ] (s : Text) (start line : Nat) :
    ∃ ts, t.scanFrom [] false start line s = .ok ts ∧ t.Tiles start line s ts := by
  induction s using t.cut_induction generalizing start line with
  | nil => exact ⟨[], scanFrom_nil [] false start line, .nil start line⟩
  | @append k a b hcut ih =>
    obtain ⟨ts, hscan, htiles⟩ := ih (start + a.utf8Size) (line + a.newlines)
    refine ⟨_, ?_, .cons hcut htiles⟩
    rw [scanFrom_append [] false hcut, hscan]
    rfl

namespace Tiles

variable {start line : Nat} {s : Text} {ts : List (Token κ)}

/-- No character is lost. -/
theorem flatMap_text (h : t.Tiles start line s ts) : ts.flatMap Token.text = s := by
  induction h with
  | nil => rfl
  | cons _ _ ih => rw [List.flatMap_cons, ih]

/-- Each token starts where the one before it stops, and the last one stops at the end. -/
theorem starts (h : t.Tiles start line s ts) :
    ts.map Token.start ++ [start + s.utf8Size] = start :: ts.map Token.stop := by
  induction h with
  | nil start line => simp
  | @cons k a b start line ts _ _ ih => simpa [Token.stop, Nat.add_assoc] using ih

/-- Each token is a piece that the table cuts off what is left of the text there. -/
theorem exists_of_mem (h : t.Tiles start line s ts) {k : Token κ} (hk : k ∈ ts) :
    ∃ a b, s = a ++ (k.text ++ b) ∧ k.start = start + a.utf8Size ∧ k.line = line + a.newlines ∧
      t.CutsOff k.kind k.text b := by
  induction h with
  | nil => cases hk
  | @cons kind a b start line ts hcut _ ih =>
    rcases List.mem_cons.mp hk with rfl | hk
    · exact ⟨[], b, rfl, rfl, rfl, hcut⟩
    · obtain ⟨c, d, rfl, hstart, hline, hpiece⟩ := ih hk
      exact ⟨a ++ c, d, by simp, by simp [hstart, Nat.add_assoc], by simp [hline, Nat.add_assoc],
        hpiece⟩

/-- No two tokens overlap. -/
theorem pairwise (h : t.Tiles start line s ts) : ts.Pairwise fun j k => j.stop ≤ k.start := by
  induction h with
  | nil => exact List.Pairwise.nil
  | cons _ hrest ih =>
    refine List.pairwise_cons.mpr ⟨fun k hk => ?_, ih⟩
    obtain ⟨_, _, _, hstart, _⟩ := hrest.exists_of_mem hk
    rw [hstart]
    exact Nat.le_add_right _ _

/-- Every byte is in a token, and so is its character. -/
theorem exists_mem_at (h : t.Tiles start line s ts) {i : Nat} (hle : start ≤ i)
    (hlt : i < start + s.utf8Size) : ∃ k ∈ ts, (k.start ≤ i ∧ i < k.stop) ∧
      ∃ (a : Text) (c : Char) (b : Text), s = a ++ c :: b ∧ c ∈ k.text ∧
        start + a.utf8Size ≤ i ∧ i < start + a.utf8Size + c.utf8Size := by
  induction h with
  | nil => exact absurd hlt (by simpa using hle)
  | @cons kind piece rest start line ts _ _ ih =>
    rw [Text.utf8Size_append] at hlt
    by_cases hi : i < start + piece.utf8Size
    · obtain ⟨a, c, b, rfl, ha, hc⟩ := Text.exists_char_at (s := piece) (i := i - start) (by omega)
      refine ⟨_, List.mem_cons_self, ⟨hle, hi⟩, a, c, b ++ rest, by simp, by simp, ?_, ?_⟩ <;> omega
    · obtain ⟨k, hk, hin, a, c, b, rfl, hmem, ha, hc⟩ := ih (by omega) (by omega)
      refine ⟨k, List.mem_cons_of_mem _ hk, hin, piece ++ a, c, b, by simp, hmem, ?_, ?_⟩ <;>
      · rw [Text.utf8Size_append]
        omega

end Tiles

end Table

/-- **Every table cuts every text into tokens without a gap.** A tolerant scan that leaves nothing
out succeeds; its tokens start at the start of the text, each where the one before it stops, up to
the end of the text, and together they are the text. None is empty; each is the part of the text
between its offsets, on the line of its first character, and is either what a pattern of its kind
takes there or one character where every pattern takes nothing. -/
theorem exists_scan_tiles [BEq κ] (t : Table κ) (s : Text) : ∃ ts, t.scan [] false s = .ok ts ∧
    ts.map Token.start ++ [s.utf8Size] = 0 :: ts.map Token.stop ∧ ts.flatMap Token.text = s ∧
    ∀ k ∈ ts, k.text ≠ [] ∧ ∃ a b, s = a ++ (k.text ++ b) ∧ k.start = a.utf8Size ∧
      k.stop = (a ++ k.text).utf8Size ∧ k.line = 1 + a.newlines ∧
      ((∃ e ∈ t.patterns, e.1 = k.kind ∧
          ∃ n, e.2 (k.text ++ b) = some n ∧ (k.text ++ b).take n = k.text) ∨
        k.kind = t.mismatch ∧ k.text.length = 1 ∧
          ∀ e ∈ t.patterns, ∀ n, e.2 (k.text ++ b) = some n → n = 0) := by
  obtain ⟨ts, hscan, htiles⟩ := t.exists_tiles s 0 1
  refine ⟨ts, hscan, ?_, htiles.flatMap_text, fun k hk => ?_⟩
  · simpa using htiles.starts
  · obtain ⟨a, b, hs, hstart, hline, hcut⟩ := htiles.exists_of_mem hk
    rw [Nat.zero_add] at hstart
    have hstop : k.stop = (a ++ k.text).utf8Size := by
      rw [Token.stop, hstart, Text.utf8Size_append]
    exact ⟨hcut.ne_nil, a, b, hs, hstart, hstop, hline, hcut.cases⟩

/-! ## Other scans -/

namespace Table.Tiles

variable [BEq κ] {t : Table κ} {start line : Nat} {s : Text} {ts : List (Token κ)}

/-- A tolerant scan leaves tokens out. -/
theorem scanFrom_tolerant (h : t.Tiles start line s ts) (remove : List κ) :
    t.scanFrom remove false start line s =
      .ok (ts.filter fun k => !remove.contains k.kind) := by
  induction h with
  | nil start line => exact scanFrom_nil remove false start line
  | @cons k a b start line ts hcut _ ih =>
    rw [scanFrom_append remove false hcut, ih]
    by_cases hk : remove.contains k = true <;> simp [Except.map, hk]

/-- A strict scan does the same, unless there is a token that no pattern takes, where it stops. -/
theorem scanFrom_strict (h : t.Tiles start line s ts) (remove : List κ) :
    t.scanFrom remove true start line s = match ts.find? fun k => k.kind == t.mismatch with
      | none => .ok (ts.filter fun k => !remove.contains k.kind)
      | some k => .error ⟨k.text, k.start, k.line⟩ := by
  induction h with
  | nil start line => exact scanFrom_nil remove true start line
  | @cons k a b start line ts hcut _ ih =>
    rw [scanFrom_append remove true hcut, ih, List.find?_cons]
    by_cases hmismatch : (k == t.mismatch) = true
    · simp [hmismatch]
    · -- the token is no reason to stop, so only those after it can be one
      simp only [Bool.true_and, hmismatch]
      cases ts.find? fun k => k.kind == t.mismatch with
      | some k' => rfl
      | none => by_cases hk : remove.contains k = true <;> simp [Except.map, hk]

end Table.Tiles

/-- A piece at the start of a text comes first in a tolerant scan, whatever that leaves out. -/
theorem Table.CutsOff.scan_tolerant [BEq κ] {t : Table κ} {k : κ} {a b : Text}
    (h : t.CutsOff k a b) : ∃ ts : List (Token κ), ∀ remove, t.scan remove false (a ++ b) =
      .ok (((⟨k, a, 0, 1⟩ : Token κ) :: ts).filter fun t => !remove.contains t.kind) := by
  obtain ⟨ts, -, htiles⟩ := t.exists_tiles b (0 + a.utf8Size) (1 + a.newlines)
  exact ⟨ts, (Tiles.cons h htiles).scanFrom_tolerant⟩

/-- Each token of any scan is a piece that the table cuts off what is left of the text there. -/
theorem Table.exists_of_mem_scanFrom [BEq κ] {t : Table κ} {remove : List κ} {strict : Bool}
    {start line : Nat} {s : Text} {us : List (Token κ)}
    (h : t.scanFrom remove strict start line s = .ok us) {k : Token κ} (hk : k ∈ us) :
    ∃ a b, s = a ++ (k.text ++ b) ∧ k.start = start + a.utf8Size ∧ k.line = line + a.newlines ∧
      t.CutsOff k.kind k.text b := by
  obtain ⟨ts, -, htiles⟩ := t.exists_tiles s start line
  have hkept : us = ts.filter fun k => !remove.contains k.kind := by
    cases strict with
    | false =>
      rw [htiles.scanFrom_tolerant] at h
      exact (Except.ok.inj h).symm
    | true =>
      rw [htiles.scanFrom_strict] at h
      split at h
      · exact (Except.ok.inj h).symm
      · cases h
  exact htiles.exists_of_mem (List.mem_filter.mp (hkept ▸ hk)).1

/-- **All scans of a text agree**: a tolerant one gives the tokens of the tolerant scan that leaves
nothing out, without the kinds that it is to leave out. A strict one does so too if no token is of
the kind of what no pattern takes; else it stops at the first such token, also where tokens of this
kind are to be left out. -/
theorem scan_eq_of_tolerant [BEq κ] (t : Table κ) (remove : List κ) (s : Text) :
    ∃ ts, t.scan [] false s = .ok ts ∧
      t.scan remove false s = .ok (ts.filter fun k => !remove.contains k.kind) ∧
      t.scan remove true s = match ts.find? fun k => k.kind == t.mismatch with
        | none => .ok (ts.filter fun k => !remove.contains k.kind)
        | some k => .error ⟨k.text, k.start, k.line⟩ := by
  obtain ⟨ts, hscan, htiles⟩ := t.exists_tiles s 0 1
  exact ⟨ts, hscan, htiles.scanFrom_tolerant remove, htiles.scanFrom_strict remove⟩

/-- Leaving out what no pattern takes does not make a strict scan tolerant. -/
example : spaceFirstTable.scan [.bad, .space] true ['a', '\n', 'é'] = .error ⟨['é'], 2, 2⟩ := by
  cbv

end ByteScript
