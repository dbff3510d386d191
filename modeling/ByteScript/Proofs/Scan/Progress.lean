import ByteScript.Proofs.Scan.Cut
import ByteScript.Scan.WordTable

/-!
# A scan goes on to the end of the text

A scan is a loop: each pass chooses a token at the start of what is left and goes on behind it. The
alternation of all patterns with a last one that takes any character always matches, but its match
may be empty, and a pass that took it would never end. With the choice by priority every pass takes a
character, so there are no more passes than characters.

* `Table.alternation`, `Table.alternation_cons`: all patterns and any character;
* `Table.length_drop_next_lt`: what is left after a pass;
* `Table.loop`, `Table.loop_append`, **`Table.loop_eq`**: the loop, pass by pass and to its end;
* **`choice_by_priority`**: the choices at a position and the loop with either.
-/

namespace ByteScript

namespace Table

variable {κ : Type} (t : Table κ)

/-! ## One pass -/

/-- The choice of the first pattern that matches at all, where the last one takes any character. -/
def alternation (s : Text) : Option (κ × Nat) :=
  (t.patterns ++ [(t.mismatch, Pattern.times 1 fun _ => true)]).findSome? fun e =>
    (e.2 s).map fun n => (e.1, n)

/-- **The alternation matches at every character.** -/
theorem alternation_cons (c : Char) (s : Text) :
    t.alternation (c :: s) = some (t.firstMatch (c :: s)) := by
  have hlast : Pattern.times 1 (fun _ => true) (c :: s) = some 1 := by simp [Pattern.times]
  rw [alternation, firstMatch, List.findSome?_append]
  cases t.patterns.findSome? fun e => (e.2 (c :: s)).map fun n => (e.1, n) with
  | none => simp [hlast]
  | some r => rfl

/-- **A pass leaves less text.** -/
theorem length_drop_next_lt (c : Char) (s : Text) :
    ((c :: s).drop (t.next (c :: s)).2).length < (c :: s).length := by
  have hpos := t.next_pos (c :: s)
  rw [List.length_drop, List.length_cons]
  omega

/-! ## The loop -/

variable [BEq κ] (choose : Text → κ × Nat) (remove : List κ) (strict : Bool)

/-- The loop of a scan with some choice at a position, stopped after so many passes: nothing if there
is text left then. A pass goes on behind as many characters as the choice says, be there none. -/
def loop (start line : Nat) : Nat → Text → Option (Except Unexpected (List (Token κ)))
  | _, [] => some (.ok [])
  | 0, _ :: _ => none
  | passes + 1, c :: s =>
    let kind := (choose (c :: s)).1
    let n := (choose (c :: s)).2
    let lexeme : Text := (c :: s).take n
    if strict && kind == t.mismatch then some (.error ⟨lexeme, start, line⟩)
    else (loop (start + lexeme.utf8Size) (line + lexeme.newlines) passes ((c :: s).drop n)).map
      (Except.map fun ts => if remove.contains kind then ts else ⟨kind, lexeme, start, line⟩ :: ts)

variable {t}

/-- **One pass** cuts off one piece. -/
theorem loop_append {k : κ} {a b : Text} (h : t.CutsOff k a b) (start line passes : Nat) :
    t.loop t.next remove strict start line (passes + 1) (a ++ b) =
      if strict && k == t.mismatch then some (.error ⟨a, start, line⟩)
      else (t.loop t.next remove strict (start + a.utf8Size) (line + a.newlines) passes b).map
        (Except.map fun ts => if remove.contains k then ts else ⟨k, a, start, line⟩ :: ts) := by
  have hkind := h.kind
  have htake := h.take
  have hdrop := h.drop
  obtain ⟨c, a, rfl⟩ := List.exists_cons_of_ne_nil h.ne_nil
  rw [List.cons_append] at hkind htake hdrop ⊢
  rw [loop]
  simp only [hkind, htake, hdrop]

/-- **The loop ends** after no more passes than there are characters. -/
theorem loop_eq (start line : Nat) (s : Text) {passes : Nat} (h : s.length ≤ passes) :
    t.loop t.next remove strict start line passes s =
      some (t.scanFrom remove strict start line s) := by
  induction s using t.cut_induction generalizing start line passes with
  | nil => rw [scanFrom_nil, loop]
  | @append k a b hcut ih =>
    have hpos := List.length_pos_iff.mpr hcut.ne_nil
    rw [List.length_append] at h
    obtain ⟨passes, rfl⟩ := Nat.exists_eq_add_one_of_ne_zero (n := passes) (by omega)
    rw [loop_append remove strict hcut, scanFrom_append remove strict hcut, ih _ _ (by omega)]
    split <;> rfl

end Table

/-- **A scan chooses by priority and comes to an end.** At every character the alternation of all
patterns and any character matches. Its choice, or where that takes nothing the choice of the patterns
one by one, is always the choice of the patterns one by one: the first pattern in order with a match of
at least one character, else one character of its own kind. So every pass leaves less text, and with
either choice the loop gives the outcome of the scan after no more passes than there are
characters. -/
theorem choice_by_priority {κ : Type} [BEq κ] (t : Table κ) :
    (∀ (c : Char) (s : Text), t.alternation (c :: s) = some (t.firstMatch (c :: s)) ∧
      t.next (c :: s) = t.firstNonempty (c :: s) ∧
      (∀ k n, t.next (c :: s) = (k, n) ↔ t.Chooses (c :: s) k n) ∧
      ((c :: s).drop (t.next (c :: s)).2).length < (c :: s).length) ∧
    ∀ (remove : List κ) (strict : Bool) (s : Text) (more : Nat),
      t.loop t.next remove strict 0 1 (s.length + more) s = some (t.scan remove strict s) ∧
      t.loop t.firstNonempty remove strict 0 1 (s.length + more) s =
        some (t.scan remove strict s) := by
  refine ⟨fun c s => ⟨t.alternation_cons c s, t.next_eq_firstNonempty _, fun k n => Table.next_eq_iff,
    t.length_drop_next_lt c s⟩, fun remove strict s more => ?_⟩
  have hend := Table.loop_eq (t := t) remove strict 0 1 s (Nat.le_add_right s.length more)
  have hsame : t.next = t.firstNonempty := funext t.next_eq_firstNonempty
  exact ⟨hend, hsame ▸ hend⟩

/-- With the first pattern that matches alone the loop does not get past an empty match. -/
example : spaceFirstTable.loop spaceFirstTable.firstMatch [] false 0 1 9 ['a'] = none := by decide

end ByteScript
