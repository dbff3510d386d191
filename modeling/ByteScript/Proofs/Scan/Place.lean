import ByteScript.Proofs.Outcome
import ByteScript.Proofs.Scan.Tiling

/-!
# Where tokens stand

Every token of a scan is a piece of the text, and so is what stops a strict one. Its offset and its
line are those of the place where the scan starts, counted on over the text in front of it. A scan
that starts at another place finds the same tokens, moved as far.

* `StandsIn`: a piece of a text with its offset and line; `StandsIn.append`: behind more text;
* **`standsIn_of_scanFrom`**, **`standsIn_of_scanFrom_eq_error`**: tokens and what stops a scan;
* `Token.move`, `Unexpected.move`: a token and what stops a scan at another place;
* **`scanFrom_move`**: a scan that starts there.
-/

namespace ByteScript

/-- A text that starts at an offset and on a line has this piece at this place. -/
def StandsIn (start line : Nat) (s piece : Text) (offset row : Nat) : Prop :=
  ∃ a b : Text, s = a ++ (piece ++ b) ∧ offset = start + a.utf8Size ∧ row = line + a.newlines

namespace StandsIn

variable {start line offset row : Nat} {s piece : Text}

theorem head (start line : Nat) (a b : Text) : StandsIn start line (a ++ b) a start line :=
  ⟨[], b, rfl, rfl, rfl⟩

theorem append {a : Text} (h : StandsIn (start + a.utf8Size) (line + a.newlines) s piece offset row) :
    StandsIn start line (a ++ s) piece offset row := by
  obtain ⟨b, c, rfl, hoffset, hrow⟩ := h
  refine ⟨a ++ b, c, (List.append_assoc a b _).symm, ?_, ?_⟩
  · rw [hoffset, Text.utf8Size_append, Nat.add_assoc]
  · rw [hrow, Text.newlines_append, Nat.add_assoc]

theorem mem {c : Char} (h : StandsIn start line s piece offset row) (hc : c ∈ piece) : c ∈ s := by
  obtain ⟨a, b, rfl, _⟩ := h
  exact List.mem_append_right _ (List.mem_append_left _ hc)

/-- In a text without a line feed every piece is on its first line. -/
theorem row_eq (h : StandsIn start line s piece offset row) (hs : '\n' ∉ s) : row = line := by
  obtain ⟨a, b, rfl, _, hrow⟩ := h
  have ha : '\n' ∉ a := fun hmem => hs (List.mem_append_left _ hmem)
  rw [hrow, Text.newlines, List.count_eq_zero_of_not_mem ha, Nat.add_zero]

end StandsIn

section Scan

variable {κ : Type} [BEq κ] {t : Table κ} {remove : List κ} {strict : Bool}

/-- **Every token stands in the text.** -/
theorem standsIn_of_scanFrom {start line : Nat} {s : Text} {ts : List (Token κ)}
    (h : t.scanFrom remove strict start line s = .ok ts) {k : Token κ} (hk : k ∈ ts) :
    StandsIn start line s k.text k.start k.line := by
  obtain ⟨a, b, hs, hstart, hline, -⟩ := Table.exists_of_mem_scanFrom h hk
  exact ⟨a, b, hs, hstart, hline⟩

/-- **What stops a strict scan stands in the text.** -/
theorem standsIn_of_scanFrom_eq_error {start line : Nat} {s : Text} {e : Unexpected}
    (h : t.scanFrom remove strict start line s = .error e) :
    StandsIn start line s e.text e.offset e.line := by
  induction s using t.cut_induction generalizing start line with
  | nil =>
    rw [Table.scanFrom_nil] at h
    cases h
  | @append kind a b hcut ih =>
    rw [Table.scanFrom_append remove strict hcut] at h
    split at h
    · obtain rfl := Except.error.inj h
      exact StandsIn.head start line a b
    · exact (ih (map_eq_error_iff.mp h)).append

/-! ## Other places -/

/-- The token so many bytes and lines further on. -/
def Token.move (bytes lines : Nat) (k : Token κ) : Token κ :=
  { k with start := k.start + bytes, line := k.line + lines }

/-- What stops a scan, so many bytes and lines further on. -/
def Unexpected.move (bytes lines : Nat) (e : Unexpected) : Unexpected :=
  { e with offset := e.offset + bytes, line := e.line + lines }

/-- **A scan that starts further on** gives the same tokens or stops at the same piece, each as far
further on. -/
theorem scanFrom_move (start line bytes lines : Nat) (s : Text) :
    t.scanFrom remove strict (start + bytes) (line + lines) s =
      ((t.scanFrom remove strict start line s).mapError (Unexpected.move bytes lines)).map
        (List.map (Token.move bytes lines)) := by
  induction s using t.cut_induction generalizing start line with
  | nil =>
    rw [Table.scanFrom_nil, Table.scanFrom_nil]
    rfl
  | append hcut ih =>
    rw [Table.scanFrom_append remove strict hcut, Table.scanFrom_append remove strict hcut]
    split
    · rfl
    · rw [Nat.add_right_comm start, Nat.add_right_comm line, ih]
      cases t.scanFrom remove strict _ _ _ with
      | error e => rfl
      | ok ts =>
        refine congrArg Except.ok ?_
        dsimp only
        split <;> rfl

end Scan

end ByteScript
