import ByteScript.Text.Basic

/-!
# Pattern tables

A scanner is given by an ordered table of patterns. At a position the first pattern that matches
decides, even if it matches nothing; an empty match is then replaced by the first nonempty one, and
a character that no pattern takes is a token of its own.

* `Pattern`: the length of the match that a pattern prefers at the start of a text, if any;
* `Pattern.many`, `Pattern.many1`, `Pattern.times`: runs of characters of a class;
* `Table`, `Table.firstMatch`, `Table.firstNonempty`, `Table.next`: the choice at a position;
* `Table.next_pos`: every choice takes at least one character.
-/

namespace ByteScript

/-- The number of characters that a pattern takes at the start of a text; nothing if it does not
match there. -/
abbrev Pattern : Type := Text → Option Nat

namespace Pattern

/-- Characters of a class, as many as there are. -/
def many (p : Char → Bool) : Pattern := fun s => some (s.takeWhile p).length

/-- One or more characters of a class, as many as there are. -/
def many1 (p : Char → Bool) : Pattern := fun s =>
  let n := (s.takeWhile p).length
  if n = 0 then none else some n

/-- A fixed number of characters of a class. -/
def times (k : Nat) (p : Char → Bool) : Pattern := fun s =>
  if k ≤ (s.takeWhile p).length then some k else none

/-- At most one character of a class. -/
def optional (p : Char → Bool) : Pattern
  | [] => some 0
  | c :: _ => some (if p c then 1 else 0)

end Pattern

/-- Patterns with their kinds in order of priority, and the kind of what no pattern takes. -/
structure Table (κ : Type) where
  patterns : List (κ × Pattern)
  mismatch : κ

namespace Table

variable {κ : Type} (t : Table κ)

/-- The choice of the first pattern that matches at all, else one character. -/
def firstMatch (s : Text) : κ × Nat :=
  (t.patterns.findSome? fun p => (p.2 s).map fun n => (p.1, n)).getD (t.mismatch, 1)

/-- The choice of the first pattern with a match of at least one character, else one character. -/
def firstNonempty (s : Text) : κ × Nat :=
  (t.patterns.findSome? fun p => ((p.2 s).filter (0 < ·)).map fun n => (p.1, n)).getD
    (t.mismatch, 1)

/-- The kind and the length of the token at the start of a text. -/
def next (s : Text) : κ × Nat :=
  if (t.firstMatch s).2 = 0 then t.firstNonempty s else t.firstMatch s

theorem firstNonempty_pos (s : Text) : 0 < (t.firstNonempty s).2 := by
  unfold firstNonempty
  cases h : t.patterns.findSome? fun p => ((p.2 s).filter (0 < ·)).map fun n => (p.1, n) with
  | none => exact Nat.one_pos
  | some r =>
    obtain ⟨p, _, hp⟩ := List.exists_of_findSome?_eq_some h
    obtain ⟨n, hn, rfl⟩ := Option.map_eq_some_iff.mp hp
    simpa using (Option.filter_eq_some_iff.mp hn).2

/-- **Every choice takes at least one character.** -/
theorem next_pos (s : Text) : 0 < (t.next s).2 := by
  unfold next
  split
  · exact t.firstNonempty_pos s
  · omega

end Table

end ByteScript
