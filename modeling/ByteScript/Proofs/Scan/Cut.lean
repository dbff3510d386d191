import ByteScript.Proofs.Scan.Priority
import ByteScript.Scan.Token

/-!
# Cutting a token off a text

Every step of a scan cuts a piece off the start of the text. Which piece it is, and of which kind,
depends on the text only: not on what the scan leaves out, whether it is strict and where it starts.

* `Table.next_cases`: the match of a pattern, or one character that no pattern takes;
* `Table.CutsOff`, `Table.exists_cutsOff`, `Table.CutsOff.cases`: the piece at the start of a text;
* **`Table.scanFrom_append`**: one step of a scan;
* **`Table.cut_induction`**: induction over a text, piece by piece.
-/

namespace ByteScript

namespace Table

variable {κ : Type} (t : Table κ)

/-! ## The choice at a position -/

/-- **The choice at a position** is the match of a pattern, with at least one character, or one
character of its own kind where every pattern takes nothing. -/
theorem next_cases (s : Text) :
    (∃ e ∈ t.patterns, e.1 = (t.next s).1 ∧ e.2 s = some (t.next s).2) ∨
      t.next s = (t.mismatch, 1) ∧ ∀ e ∈ t.patterns, ∀ n, e.2 s = some n → n = 0 := by
  obtain ⟨k, n, hnext⟩ : ∃ k n, t.next s = (k, n) := ⟨_, _, rfl⟩
  rw [hnext]
  cases next_eq_iff.mp hnext with
  | @pattern before after k p n horder _ hmatched _ =>
    exact Or.inl ⟨(k, p), horder ▸ by simp, rfl, hmatched⟩
  | mismatch hempty => exact Or.inr ⟨rfl, hempty⟩

/-! ## The piece at the start of a text -/

/-- The table cuts this piece, of this kind, off the start of a text and leaves the rest. -/
structure CutsOff (k : κ) (piece rest : Text) : Prop where
  ne_nil : piece ≠ []
  kind : (t.next (piece ++ rest)).1 = k
  take : (piece ++ rest).take (t.next (piece ++ rest)).2 = piece

variable {t} in
/-- A piece is the match of a pattern, or one character that no pattern takes. -/
theorem CutsOff.cases {k : κ} {a b : Text} (h : t.CutsOff k a b) :
    (∃ e ∈ t.patterns, e.1 = k ∧ ∃ n, e.2 (a ++ b) = some n ∧ (a ++ b).take n = a) ∨
      k = t.mismatch ∧ a.length = 1 ∧
        ∀ e ∈ t.patterns, ∀ n, e.2 (a ++ b) = some n → n = 0 := by
  rcases t.next_cases (a ++ b) with ⟨e, he, hkind, hmatch⟩ | ⟨hnext, hnone⟩
  · exact Or.inl ⟨e, he, hkind.trans h.kind, _, hmatch, h.take⟩
  · have htake := h.take
    have hkind := h.kind
    obtain ⟨c, a, rfl⟩ := List.exists_cons_of_ne_nil h.ne_nil
    rw [hnext] at htake hkind
    refine Or.inr ⟨hkind.symm, ?_, hnone⟩
    simpa using (congrArg List.length htake).symm

variable {t} in
theorem CutsOff.drop {k : κ} {a b : Text} (h : t.CutsOff k a b) :
    (a ++ b).drop (t.next (a ++ b)).2 = b := by
  have hsplit := List.take_append_drop (t.next (a ++ b)).2 (a ++ b)
  rw [h.take] at hsplit
  exact List.append_cancel_left hsplit

variable {t} in
theorem cutsOff_of_next {k : κ} {a b : Text} (ha : a ≠ []) (h : t.next (a ++ b) = (k, a.length)) :
    t.CutsOff k a b where
  ne_nil := ha
  kind := by rw [h]
  take := by rw [h, List.take_left' rfl]

theorem exists_cutsOff {s : Text} (hs : s ≠ []) : ∃ k a b, s = a ++ b ∧ t.CutsOff k a b := by
  have hpos := t.next_pos s
  refine ⟨(t.next s).1, s.take (t.next s).2, s.drop (t.next s).2,
    (List.take_append_drop _ s).symm, ?_, ?_, ?_⟩
  · simp [List.take_eq_nil_iff, hs, Nat.ne_of_gt hpos]
  · rw [List.take_append_drop]
  · rw [List.take_append_drop]

/-- **Induction over a text**, piece by piece from its start. -/
theorem cut_induction {motive : Text → Prop} (nil : motive [])
    (append : ∀ {k : κ} {a b : Text}, t.CutsOff k a b → motive b → motive (a ++ b)) (s : Text) :
    motive s := by
  induction hlen : s.length using Nat.strongRecOn generalizing s with
  | ind n ih => ?_
  by_cases hs : s = []
  · exact hs ▸ nil
  · obtain ⟨k, a, b, rfl, hcut⟩ := t.exists_cutsOff hs
    have hpos := List.length_pos_iff.mpr hcut.ne_nil
    rw [List.length_append] at hlen
    exact append hcut (ih b.length (by omega) b rfl)

/-! ## One step of a scan -/

variable {t} [BEq κ] (remove : List κ) (strict : Bool)

/-- **One step of a scan** cuts off one piece. -/
theorem scanFrom_append {k : κ} {a b : Text} (h : t.CutsOff k a b) (start line : Nat) :
    t.scanFrom remove strict start line (a ++ b) =
      if strict && k == t.mismatch then .error ⟨a, start, line⟩
      else (t.scanFrom remove strict (start + a.utf8Size) (line + a.newlines) b).map fun ts =>
        if remove.contains k then ts else ⟨k, a, start, line⟩ :: ts := by
  have hkind := h.kind
  have htake := h.take
  have hdrop := h.drop
  have hpos := t.next_pos (a ++ b)
  obtain ⟨c, a, rfl⟩ := List.exists_cons_of_ne_nil h.ne_nil
  obtain ⟨n, hn⟩ := Nat.exists_eq_add_of_lt hpos
  rw [Nat.zero_add] at hn
  rw [hn, List.cons_append, List.take_succ_cons, List.cons.injEq] at htake
  rw [hn, List.cons_append, List.drop_succ_cons] at hdrop
  rw [List.cons_append] at hkind hn ⊢
  rw [Table.scanFrom]
  simp only [hkind, hn, Nat.add_sub_cancel, htake.2, hdrop]
  split
  · rfl
  · cases t.scanFrom remove strict _ _ b <;> rfl

theorem scanFrom_nil (start line : Nat) : t.scanFrom remove strict start line [] = .ok [] := by
  rw [Table.scanFrom]

end Table

end ByteScript
