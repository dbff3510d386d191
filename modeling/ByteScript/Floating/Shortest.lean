import ByteScript.Floating.Format

/-!
# Shortest decimals

The fewest decimal digits that still single out a number among those of its format. The decimals
that round to a number fill an interval around it, and the search goes through the grids of the
powers of ten, coarse ones first, until one of the two neighbours of the number on the grid lies
in that interval.

* `Decimal`: a coefficient times a power of ten;
* `Rounding`: a fraction with the bounds of the interval that rounds to it;
* `Rounding.onGrid?`: the neighbour chosen on one grid, the greater of two equally near;
* `Rounding.shortest`: the first hit of the search.
-/

namespace ByteScript

/-- A decimal number `coefficient * 10 ^ zeros / 10 ^ places`. -/
structure Decimal where
  coefficient : Nat
  zeros : Nat
  places : Nat
deriving DecidableEq

/-- The fraction `value / den` between the bounds of the interval that rounds to it. -/
structure Rounding where
  low : Nat
  value : Nat
  high : Nat
  den : Nat
  /-- The bounds belong to the interval. -/
  closed : Bool

namespace Rounding

variable (t : Rounding)

/-- The fraction `n / d` lies in the interval. -/
def admits (n d : Nat) : Bool :=
  if t.closed then t.low * d ≤ n * t.den && n * t.den ≤ t.high * d
  else t.low * d < n * t.den && n * t.den < t.high * d

/-- The coefficient on the grid of the multiples of `p / q` that lies in the interval, the nearer
to the value if there are two, the greater if both are equally near. -/
def onGrid? (p q : Nat) : Option Nat :=
  let c := t.value * q / (t.den * p)
  match t.admits (c * p) q, t.admits ((c + 1) * p) q with
  | true, true => some (if 2 * (t.value * q) < (2 * c + 1) * (t.den * p) then c else c + 1)
  | true, false => some c
  | false, true => some (c + 1)
  | false, false => none

theorem onGrid?_admits {p q c : Nat} (h : t.onGrid? p q = some c) : t.admits (c * p) q = true := by
  simp only [onGrid?] at h
  split at h <;> simp only [Option.some.injEq, reduceCtorEq] at h
  · split at h <;> subst h <;> assumption
  · subst h; assumption
  · subst h; assumption

/-- The search through the grids of `10 ^ j`, …, `10`, `1`. -/
def coarse? : (j : Nat) → Option Decimal
  | 0 => (t.onGrid? 1 1).map fun c => ⟨c, 0, 0⟩
  | j + 1 =>
    match t.onGrid? (Nat.pow 10 (j + 1)) 1 with
    | some c => some ⟨c, j + 1, 0⟩
    | none => coarse? j

/-- The search through `n` grids with `places` and more decimal places. -/
def fine? (places : Nat) : (n : Nat) → Option Decimal
  | 0 => none
  | n + 1 =>
    match t.onGrid? 1 (Nat.pow 10 places) with
    | some c => some ⟨c, 0, places⟩
    | none => fine? (places + 1) n

/-- **The shortest decimal of the interval**; on the last grid, that of `10 ^ -places`, every value
with a denominator `2 ^ places` is exact. -/
def shortest (places : Nat) : Decimal :=
  ((t.coarse? (Nat.toDigits 10 (t.value / t.den)).length).or (t.fine? 1 places)).getD
    ⟨t.value * Nat.pow 10 places / t.den, 0, places⟩

end Rounding

/-- The interval of the fractions that round to a finite magnitude above zero, in quarter steps:
below a power of two the step is half as wide, and the bounds round to an even neighbour. -/
def FloatFormat.rounding (fmt : FloatFormat) (m : Nat) : Rounding where
  low := 4 * fmt.units m -
    (if fmt.fractionField m = 0 ∧ 1 < fmt.exponentField m then 1 else 2) * fmt.step m
  value := 4 * fmt.units m
  high := 4 * fmt.units m + 2 * fmt.step m
  den := 4 * Nat.pow 2 fmt.scale
  closed := m % 2 = 0

/-- The shortest decimal that reads back as a finite magnitude. -/
def FloatFormat.shortest (fmt : FloatFormat) (m : Nat) : Decimal :=
  if m = 0 then ⟨0, 0, 0⟩ else (fmt.rounding m).shortest fmt.scale

end ByteScript
