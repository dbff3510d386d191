import ByteScript.Floating.Shortest
import Mathlib.Tactic.Ring

/-!
# Rounding to a binary format

A finite magnitude is `a * 2 ^ s` units for a significand `a` and a spacing `2 ^ s`, and every
fraction in the interval around it rounds to it.

* `FloatFormat.IsSignificand`, `exists_isSignificand`: significand and spacing of a magnitude;
* `units_of_isSignificand`, `step_of_isSignificand`: its value and its step;
* `roundEven_eq`: the whole number nearest to a quotient;
* **`round_of_bounds`**, **`round_of_admits`**: fractions near a magnitude round to it;
* `round_of_eq`: a magnitude is its own rounding.
-/

namespace ByteScript

theorem two_pow_add (m n : Nat) : Nat.pow 2 (m + n) = Nat.pow 2 m * Nat.pow 2 n := Nat.pow_add 2 m n

theorem two_pow_succ (n : Nat) : Nat.pow 2 (n + 1) = 2 * Nat.pow 2 n := Nat.mul_comm _ _

theorem two_pow_pos (n : Nat) : 0 < Nat.pow 2 n := Nat.pow_pos (by decide)

/-! ## The nearest whole number -/

/-- **A whole number at most half away is the nearest one**, if ties go to it. -/
theorem roundEven_eq {n d q : Nat} (hd : 0 < d) (hlow : 2 * (q * d) ≤ 2 * n + d)
    (hhigh : 2 * n ≤ 2 * (q * d) + d)
    (htie : q % 2 = 0 ∨ 2 * (q * d) < 2 * n + d ∧ 2 * n < 2 * (q * d) + d) : roundEven n d = q := by
  have hdiv : n / d * d + n % d = n := Nat.div_add_mod' n d
  have hr : n % d < d := Nat.mod_lt n hd
  unfold roundEven
  generalize n % d = r at hdiv hr
  generalize n / d = p at hdiv
  rcases Nat.lt_trichotomy p q with hpq | rfl | hpq
  · -- the quotient is rounded up to `q`
    obtain ⟨k, rfl⟩ : ∃ k, q = p + 1 + k := ⟨q - (p + 1), by omega⟩
    have hk : (p + 1 + k) * d = p * d + d + k * d := by rw [Nat.add_mul, Nat.add_mul, Nat.one_mul]
    rw [hk] at hlow hhigh htie
    have hk0 : k = 0 := by
      rcases Nat.eq_zero_or_pos k with h | h
      · exact h
      · have := Nat.mul_le_mul_right d h
        omega
    subst hk0
    have h0 : 0 * d = 0 := Nat.zero_mul d
    rw [h0] at hlow hhigh htie
    dsimp only
    rw [if_neg]
    omega
  · dsimp only
    rw [if_pos]
    omega
  · obtain ⟨k, rfl⟩ : ∃ k, p = q + 1 + k := ⟨p - (q + 1), by omega⟩
    have hk : (q + 1 + k) * d = q * d + d + k * d := by rw [Nat.add_mul, Nat.add_mul, Nat.one_mul]
    omega

namespace FloatFormat

variable (fmt : FloatFormat)

/-! ## Significands -/

/-- `a` units of the spacing `2 ^ s` are a magnitude: the significand has its leading one unless
the spacing is the least. -/
def IsSignificand (s a : Nat) : Prop :=
  a < Nat.pow 2 (fmt.fractionBits + 1) ∧ (s = 0 ∨ Nat.pow 2 fmt.fractionBits ≤ a)

variable {fmt} {s a m n d : Nat}

theorem exists_isSignificand (fmt : FloatFormat) (m : Nat) :
    ∃ s a, fmt.IsSignificand s a ∧ m = s * Nat.pow 2 fmt.fractionBits + a := by
  have hp := two_pow_pos fmt.fractionBits
  have hsucc := two_pow_succ fmt.fractionBits
  have hdiv := Nat.div_add_mod' m (Nat.pow 2 fmt.fractionBits)
  have hr := Nat.mod_lt m hp
  generalize m % Nat.pow 2 fmt.fractionBits = r at hdiv hr
  generalize m / Nat.pow 2 fmt.fractionBits = e at hdiv
  cases e with
  | zero => exact ⟨0, r, ⟨by omega, Or.inl rfl⟩, by rw [← hdiv]⟩
  | succ e =>
    refine ⟨e, Nat.pow 2 fmt.fractionBits + r, ⟨by omega, Or.inr (by omega)⟩, ?_⟩
    rw [← hdiv, Nat.succ_mul, Nat.add_assoc]

/-- The exponent and fraction fields of a magnitude with a leading one. -/
theorem fields_of_isSignificand (h : fmt.IsSignificand s a)
    (ha : Nat.pow 2 fmt.fractionBits ≤ a) :
    fmt.exponentField (s * Nat.pow 2 fmt.fractionBits + a) = s + 1 ∧
      fmt.fractionField (s * Nat.pow 2 fmt.fractionBits + a) + Nat.pow 2 fmt.fractionBits = a := by
  have hp := two_pow_pos fmt.fractionBits
  have hlt : a - Nat.pow 2 fmt.fractionBits < Nat.pow 2 fmt.fractionBits := by
    have := h.1
    rw [two_pow_succ] at this
    omega
  have hm : s * Nat.pow 2 fmt.fractionBits + a =
      a - Nat.pow 2 fmt.fractionBits + (s + 1) * Nat.pow 2 fmt.fractionBits := by
    rw [Nat.add_mul]
    omega
  rw [exponentField, fractionField, hm, Nat.add_mul_div_right _ _ hp, Nat.add_mul_mod_self_right,
    Nat.div_eq_of_lt hlt, Nat.mod_eq_of_lt hlt]
  omega

theorem fields_of_lt (ha : a < Nat.pow 2 fmt.fractionBits) :
    fmt.exponentField a = 0 ∧ fmt.fractionField a = a :=
  ⟨Nat.div_eq_of_lt ha, Nat.mod_eq_of_lt ha⟩

theorem step_of_isSignificand (h : fmt.IsSignificand s a) :
    fmt.step (s * Nat.pow 2 fmt.fractionBits + a) = Nat.pow 2 s := by
  unfold step
  rcases Nat.lt_or_ge a (Nat.pow 2 fmt.fractionBits) with ha | ha
  · obtain rfl : s = 0 := h.2.resolve_right (by omega)
    rw [Nat.zero_mul, Nat.zero_add, (fields_of_lt ha).1]
  · rw [(fields_of_isSignificand h ha).1, Nat.add_sub_cancel]

/-- **The value of a magnitude is its significand times its spacing.** -/
theorem units_of_isSignificand (h : fmt.IsSignificand s a) :
    fmt.units (s * Nat.pow 2 fmt.fractionBits + a) = a * Nat.pow 2 s := by
  unfold units
  rw [step_of_isSignificand h]
  rcases Nat.lt_or_ge a (Nat.pow 2 fmt.fractionBits) with ha | ha
  · obtain rfl : s = 0 := h.2.resolve_right (by omega)
    have hone : Nat.pow 2 0 = 1 := rfl
    rw [Nat.zero_mul, Nat.zero_add, if_pos (fields_of_lt ha).1, (fields_of_lt ha).2, hone,
      Nat.mul_one]
  · rw [if_neg (by rw [(fields_of_isSignificand h ha).1]; omega), (fields_of_isSignificand h ha).2]

theorem isPowerOfTwo_of_isSignificand (h : fmt.IsSignificand s a) :
    (fmt.fractionField (s * Nat.pow 2 fmt.fractionBits + a) = 0 ∧
      1 < fmt.exponentField (s * Nat.pow 2 fmt.fractionBits + a)) ↔
    a = Nat.pow 2 fmt.fractionBits ∧ 0 < s := by
  rcases Nat.lt_or_ge a (Nat.pow 2 fmt.fractionBits) with ha | ha
  · obtain rfl : s = 0 := h.2.resolve_right (by omega)
    rw [Nat.zero_mul, Nat.zero_add, (fields_of_lt ha).1]
    omega
  · obtain ⟨he, hf⟩ := fields_of_isSignificand h ha
    rw [he]
    omega

/-! ## Rounding -/

theorem spacing_eq {q : Nat} (hlow : s = 0 ∨ Nat.pow 2 (fmt.fractionBits + s) ≤ q)
    (hhigh : q < Nat.pow 2 (fmt.fractionBits + s + 1)) : fmt.spacing q = s := by
  unfold spacing
  by_cases hq : q = 0
  · subst hq
    rcases hlow with rfl | hlow
    · rw [Nat.log2_zero, Nat.zero_sub]
    · have := two_pow_pos (fmt.fractionBits + s)
      omega
  · have h1 : q.log2 < fmt.fractionBits + s + 1 := (Nat.log2_lt hq).mpr hhigh
    rcases hlow with rfl | hlow
    · omega
    · have h2 : fmt.fractionBits + s ≤ q.log2 := (Nat.le_log2 hq).mpr hlow
      omega

/-- The quotient of a fraction near a significand lies below the next power of two. -/
theorem quotient_lt {U : Nat} (ha : a < Nat.pow 2 (fmt.fractionBits + 1)) (hd : 0 < d)
    (hhigh : 2 * U ≤ 2 * (a * (d * Nat.pow 2 s)) + d * Nat.pow 2 s) :
    U / d < Nat.pow 2 (fmt.fractionBits + s + 1) := by
  rw [two_pow_succ] at ha
  have hT : 0 < d * Nat.pow 2 s := Nat.mul_pos hd (two_pow_pos s)
  rw [Nat.div_lt_iff_lt_mul hd, Nat.add_assoc, two_pow_add, two_pow_succ]
  have h2 : Nat.pow 2 fmt.fractionBits * (2 * Nat.pow 2 s) * d =
      2 * (Nat.pow 2 fmt.fractionBits * (d * Nat.pow 2 s)) := by ring
  rw [h2]
  have h3 := Nat.mul_le_mul_right (d * Nat.pow 2 s)
    (show a + 1 ≤ 2 * Nat.pow 2 fmt.fractionBits by omega)
  rw [Nat.add_mul, Nat.one_mul, Nat.mul_assoc] at h3
  omega

/-- Just below a power of two the spacing is half as wide, and twice as many steps lead to the
power. -/
theorem spacing_below_power {U t : Nat} (hF : 0 < fmt.fractionBits) (hd : 0 < d)
    (hU : U < Nat.pow 2 (fmt.fractionBits + (t + 1)) * d)
    (hpow : 4 * (Nat.pow 2 fmt.fractionBits * (d * Nat.pow 2 (t + 1))) ≤
      4 * U + d * Nat.pow 2 (t + 1)) :
    fmt.spacing (U / d) = t ∧
      roundEven U (d * Nat.pow 2 t) = 2 * Nat.pow 2 fmt.fractionBits := by
  have hFp := two_pow_pos fmt.fractionBits
  obtain ⟨g, hg⟩ : ∃ g, fmt.fractionBits = g + 1 := ⟨fmt.fractionBits - 1, by omega⟩
  have hW : d * Nat.pow 2 (t + 1) = 2 * (d * Nat.pow 2 t) := by rw [two_pow_succ]; ring
  have hWpos : 0 < d * Nat.pow 2 t := Nat.mul_pos hd (two_pow_pos t)
  have hcomm : ∀ x y : Nat, x * (2 * y) = 2 * x * y := fun x y => by ring
  have hU' : U < 2 * Nat.pow 2 fmt.fractionBits * (d * Nat.pow 2 t) := by
    rw [two_pow_add] at hU
    calc U < Nat.pow 2 fmt.fractionBits * Nat.pow 2 (t + 1) * d := hU
      _ = 2 * Nat.pow 2 fmt.fractionBits * (d * Nat.pow 2 t) := by rw [two_pow_succ]; ring
  rw [hW, hcomm] at hpow
  constructor
  · refine spacing_eq (Or.inr ((Nat.le_div_iff_mul_le hd).mpr ?_)) ?_
    · rw [two_pow_add]
      have h4 : Nat.pow 2 fmt.fractionBits * Nat.pow 2 t * d =
          Nat.pow 2 fmt.fractionBits * (d * Nat.pow 2 t) := by ring
      have h5 := Nat.mul_le_mul_right (d * Nat.pow 2 t) hFp
      rw [Nat.succ_mul, Nat.zero_mul, Nat.zero_add] at h5
      rw [h4]
      rw [Nat.mul_assoc] at hpow
      omega
    · rw [Nat.div_lt_iff_lt_mul hd]
      exact hU
  · refine roundEven_eq hWpos ?_ ?_ (Or.inl (by omega))
    · omega
    · omega

/-- **A fraction within half a step of a magnitude rounds to it**; below a power of two the step
is half as wide. -/
theorem round_of_bounds (hF : 0 < fmt.fractionBits) (h : fmt.IsSignificand s a)
    (hfin : s * Nat.pow 2 fmt.fractionBits + a ≤ fmt.infinity) (hd : 0 < d)
    (hlow : 2 * (a * (d * Nat.pow 2 s)) ≤ 2 * (n * Nat.pow 2 fmt.scale) + d * Nat.pow 2 s)
    (hhigh : 2 * (n * Nat.pow 2 fmt.scale) ≤ 2 * (a * (d * Nat.pow 2 s)) + d * Nat.pow 2 s)
    (htie : a % 2 = 0 ∨
      2 * (a * (d * Nat.pow 2 s)) < 2 * (n * Nat.pow 2 fmt.scale) + d * Nat.pow 2 s ∧
        2 * (n * Nat.pow 2 fmt.scale) < 2 * (a * (d * Nat.pow 2 s)) + d * Nat.pow 2 s)
    (hpow : a = Nat.pow 2 fmt.fractionBits → 0 < s →
      4 * (a * (d * Nat.pow 2 s)) ≤ 4 * (n * Nat.pow 2 fmt.scale) + d * Nat.pow 2 s) :
    fmt.round n d = s * Nat.pow 2 fmt.fractionBits + a := by
  unfold round
  dsimp only
  generalize n * Nat.pow 2 fmt.scale = U at *
  have hT : 0 < d * Nat.pow 2 s := Nat.mul_pos hd (two_pow_pos s)
  obtain ⟨ha, hsa⟩ := h
  have hq := quotient_lt ha hd hhigh
  by_cases hs : s = 0 ∨ Nat.pow 2 (fmt.fractionBits + s) * d ≤ U
  · have hsp : fmt.spacing (U / d) = s := by
      refine spacing_eq ?_ hq
      rcases hs with hs | hs
      · exact Or.inl hs
      · exact Or.inr ((Nat.le_div_iff_mul_le hd).mpr hs)
    rw [hsp, roundEven_eq hT hlow hhigh htie, Nat.min_eq_right hfin]
  · simp only [not_or, Nat.not_le] at hs
    obtain ⟨hs0, hU⟩ := hs
    have haF := hsa.resolve_left hs0
    have haeq : a = Nat.pow 2 fmt.fractionBits := by
      -- a greater significand would put the fraction above the power
      rcases Nat.eq_or_lt_of_le haF with he | hlt
      · exact he.symm
      · have hU' : U < Nat.pow 2 fmt.fractionBits * (d * Nat.pow 2 s) := by
          rw [two_pow_add] at hU
          calc U < Nat.pow 2 fmt.fractionBits * Nat.pow 2 s * d := hU
            _ = Nat.pow 2 fmt.fractionBits * (d * Nat.pow 2 s) := by ring
        have h3 := Nat.mul_le_mul_right (d * Nat.pow 2 s) (Nat.succ_le_of_lt hlt)
        rw [Nat.succ_mul] at h3
        omega
    obtain ⟨t, rfl⟩ : ∃ t, s = t + 1 := ⟨s - 1, by omega⟩
    have hpow' := hpow haeq (by omega)
    subst haeq
    obtain ⟨hsp, hround⟩ := spacing_below_power hF hd hU hpow'
    have hsum : t * Nat.pow 2 fmt.fractionBits + 2 * Nat.pow 2 fmt.fractionBits =
        (t + 1) * Nat.pow 2 fmt.fractionBits + Nat.pow 2 fmt.fractionBits := by ring
    rw [hsp, hround, hsum, Nat.min_eq_right hfin]

/-- **A fraction in the interval of a magnitude rounds to it.** -/
theorem round_of_admits (hF : 0 < fmt.fractionBits) (hm : 0 < m) (hfin : m ≤ fmt.infinity)
    (hd : 0 < d) (hadm : (fmt.rounding m).admits n d = true) : fmt.round n d = m := by
  obtain ⟨s, a, h, rfl⟩ := exists_isSignificand fmt m
  obtain ⟨g, hg⟩ : ∃ g, fmt.fractionBits = g + 1 := ⟨fmt.fractionBits - 1, by omega⟩
  have hpar : (s * Nat.pow 2 fmt.fractionBits + a) % 2 = a % 2 := by
    rw [hg, two_pow_succ, Nat.mul_left_comm, Nat.mul_add_mod]
  have hpos : 0 < a := by
    rcases h.2 with rfl | ha
    · omega
    · exact Nat.lt_of_lt_of_le (two_pow_pos _) ha
  have hstep : Nat.pow 2 s ≤ a * Nat.pow 2 s := Nat.le_mul_of_pos_left _ hpos
  have hT : d * Nat.pow 2 s ≤ a * (d * Nat.pow 2 s) := Nat.le_mul_of_pos_left _ hpos
  have hn : n * (4 * Nat.pow 2 fmt.scale) = 4 * (n * Nat.pow 2 fmt.scale) := Nat.mul_left_comm _ _ _
  have hu : ∀ k, (4 * (a * Nat.pow 2 s) - k * Nat.pow 2 s) * d =
      4 * (a * (d * Nat.pow 2 s)) - k * (d * Nat.pow 2 s) := by
    intro k
    rw [Nat.sub_mul]
    congr 1 <;> ring
  have hv : (4 * (a * Nat.pow 2 s) + 2 * Nat.pow 2 s) * d =
      4 * (a * (d * Nat.pow 2 s)) + 2 * (d * Nat.pow 2 s) := by ring
  rw [Rounding.admits, rounding] at hadm
  simp only [units_of_isSignificand h, step_of_isSignificand h, isPowerOfTwo_of_isSignificand h,
    hpar, hn, hu, hv, decide_eq_true_eq] at hadm
  generalize hk : (if a = Nat.pow 2 fmt.fractionBits ∧ 0 < s then 1 else 2) = k at hadm
  have hkle : k * (d * Nat.pow 2 s) ≤ 2 * (d * Nat.pow 2 s) :=
    Nat.mul_le_mul_right _ (by rw [← hk]; split <;> omega)
  have hone : a = Nat.pow 2 fmt.fractionBits → 0 < s → k * (d * Nat.pow 2 s) = d * Nat.pow 2 s := by
    intro h1 h2
    rw [← hk, if_pos ⟨h1, h2⟩, Nat.one_mul]
  refine round_of_bounds hF h hfin hd ?_ ?_ ?_ fun h1 h2 => ?_
  · split at hadm <;> simp only [Bool.and_eq_true, decide_eq_true_eq] at hadm <;> omega
  · split at hadm <;> simp only [Bool.and_eq_true, decide_eq_true_eq] at hadm <;> omega
  · split at hadm <;> simp only [Bool.and_eq_true, decide_eq_true_eq] at hadm
    · exact Or.inl (by assumption)
    · right; omega
  · have := hone h1 h2
    split at hadm <;> simp only [Bool.and_eq_true, decide_eq_true_eq] at hadm <;> omega

/-- **The value of a magnitude rounds to it.** -/
theorem round_of_eq (hF : 0 < fmt.fractionBits) (h : fmt.IsSignificand s a)
    (hfin : s * Nat.pow 2 fmt.fractionBits + a ≤ fmt.infinity) (hd : 0 < d)
    (hn : n * Nat.pow 2 fmt.scale = a * (d * Nat.pow 2 s)) :
    fmt.round n d = s * Nat.pow 2 fmt.fractionBits + a := by
  have hT : 0 < d * Nat.pow 2 s := Nat.mul_pos hd (two_pow_pos s)
  refine round_of_bounds hF h hfin hd ?_ ?_ (Or.inr ⟨?_, ?_⟩) fun _ _ => ?_ <;> omega

end FloatFormat

end ByteScript
