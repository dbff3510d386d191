import ByteScript.Scan.Table

/-!
# The choice by priority

At a position the first pattern in order with a match of at least one character decides, and where
there is none, one character is taken. A scan comes to this choice in two ways: by all patterns at
once, of which the first that matches decides even if its match is empty, or one by one. It goes
through them one by one only where the first way takes nothing, and both ways agree elsewhere.

* `Table.Chooses`: the choice by priority;
* **`Table.firstNonempty_eq_iff`**: the patterns one by one;
* `Table.chooses_firstMatch`: the patterns at once;
* **`Table.next_eq_iff`**: the choice of a scan.
-/

namespace ByteScript

namespace Table

variable {κ : Type} (t : Table κ)

/-- The choice by priority: the first pattern with a match of at least one character, or one
character of its own kind where every pattern matches nothing or not at all. -/
inductive Chooses (s : Text) : κ → Nat → Prop
  | pattern {before after : List (κ × Pattern)} {k : κ} {p : Pattern} {n : Nat}
      (order : t.patterns = before ++ (k, p) :: after)
      (empty : ∀ e ∈ before, ∀ m, e.2 s = some m → m = 0)
      (matched : p s = some n) (pos : 0 < n) : Chooses s k n
  | mismatch (empty : ∀ e ∈ t.patterns, ∀ m, e.2 s = some m → m = 0) : Chooses s t.mismatch 1

variable {t} {s : Text} {k : κ} {n : Nat}

/-! ## One by one -/

theorem map_filter_eq_none_iff {β : Type} {o : Option Nat} {f : Nat → β} :
    (o.filter (0 < ·)).map f = none ↔ ∀ m, o = some m → m = 0 := by
  simp [Option.filter_eq_none_iff]

/-- **The patterns one by one choose by priority.** -/
theorem firstNonempty_eq_iff : t.firstNonempty s = (k, n) ↔ t.Chooses s k n := by
  unfold firstNonempty
  constructor
  · intro h
    cases hfind : t.patterns.findSome? fun e => ((e.2 s).filter (0 < ·)).map fun n => (e.1, n) with
    | none =>
      rw [hfind] at h
      obtain ⟨rfl, rfl⟩ := Prod.mk.inj h
      exact .mismatch fun e he =>
        map_filter_eq_none_iff.mp (List.findSome?_eq_none_iff.mp hfind e he)
    | some r =>
      rw [hfind] at h
      obtain rfl : r = (k, n) := h
      obtain ⟨before, e, after, horder, he, hnone⟩ := List.findSome?_eq_some_iff.mp hfind
      obtain ⟨m, hm, hkn⟩ := Option.map_eq_some_iff.mp he
      obtain ⟨rfl, rfl⟩ := Prod.mk.inj hkn
      obtain ⟨hmatched, hpos⟩ := Option.filter_eq_some_iff.mp hm
      exact .pattern horder (fun d hd => map_filter_eq_none_iff.mp (hnone d hd)) hmatched
        (of_decide_eq_true hpos)
  · intro h
    cases h with
    | @pattern before after k p n horder hempty hmatched hpos =>
      rw [horder, List.findSome?_append,
        List.findSome?_eq_none_iff.mpr fun d hd => map_filter_eq_none_iff.mpr (hempty d hd)]
      simp [hmatched, Option.filter_some, hpos]
    | mismatch hempty =>
      rw [List.findSome?_eq_none_iff.mpr fun e he => map_filter_eq_none_iff.mpr (hempty e he)]
      rfl

/-! ## All at once -/

/-- **The patterns at once choose by priority** if they take anything: no pattern before the one that
matches first matches at all. -/
theorem chooses_firstMatch (h : (t.firstMatch s).2 ≠ 0) :
    t.Chooses s (t.firstMatch s).1 (t.firstMatch s).2 := by
  unfold firstMatch at h ⊢
  cases hfind : t.patterns.findSome? fun e => (e.2 s).map fun n => (e.1, n) with
  | none =>
    have hnone := List.findSome?_eq_none_iff.mp hfind
    refine .mismatch fun e he m hm => ?_
    have := hnone e he
    rw [hm] at this
    cases this
  | some r =>
    obtain ⟨before, e, after, horder, he, hnone⟩ := List.findSome?_eq_some_iff.mp hfind
    obtain ⟨m, hm, rfl⟩ := Option.map_eq_some_iff.mp he
    rw [hfind] at h
    refine .pattern horder (fun d hd n hn => ?_) hm (Nat.pos_of_ne_zero h)
    have := hnone d hd
    rw [hn] at this
    cases this

theorem next_eq_firstNonempty (t : Table κ) (s : Text) : t.next s = t.firstNonempty s := by
  unfold next
  split
  · rfl
  · next h => exact (firstNonempty_eq_iff.mpr (chooses_firstMatch h)).symm

/-- **A scan chooses by priority.** -/
theorem next_eq_iff : t.next s = (k, n) ↔ t.Chooses s k n := by
  rw [next_eq_firstNonempty, firstNonempty_eq_iff]

end Table

end ByteScript
