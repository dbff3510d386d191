import ByteScript.Listing.Value
import ByteScript.Script.Scope
import ByteScript.Proofs.Number.Numeral
import ByteScript.Proofs.Floating.Rounding

/-!
# Floating-point text reads back

The shortest decimal of a number lies in the interval that rounds to it, so that the literal that
is written for a number is read as that number, and a field of four or eight bytes is restored bit
by bit.

* `admits_shortest`: the search for digits ends in the interval;
* `PointText`, `exists_pointText`: the form of the text of a finite number;
* **`read?_pointText`**: reading inverts writing;
* `convert_double`, `convert_single`: single numbers are exact in the double format;
* **`floatBytes_floatText`**: the bytes of a finite field are those of its literal.
-/

namespace ByteScript

/-! ## The shortest decimal -/

theorem ten_pow_pos (n : Nat) : 0 < Nat.pow 10 n := Nat.pow_pos (by decide)

namespace Rounding

variable (t : Rounding)

/-- The interval depends on the fraction only. -/
theorem admits_mul {n d k : Nat} (hk : 0 < k) : t.admits (n * k) (d * k) = t.admits n d := by
  have h1 : n * k * t.den = n * t.den * k := Nat.mul_right_comm n k t.den
  have h2 : ∀ b, b * (d * k) = b * d * k := fun b => (Nat.mul_assoc b d k).symm
  unfold admits
  simp only [h1, h2, Nat.mul_lt_mul_right hk, Nat.mul_le_mul_right_iff hk]

theorem admits_coarse? {j : Nat} {d : Decimal} (h : t.coarse? j = some d) :
    d.places = 0 ∧ t.admits (d.coefficient * Nat.pow 10 d.zeros) 1 = true := by
  induction j with
  | zero =>
    rw [coarse?] at h
    obtain ⟨c, hc, rfl⟩ := Option.map_eq_some_iff.mp h
    exact ⟨rfl, t.onGrid?_admits hc⟩
  | succ j ih =>
    rw [coarse?] at h
    split at h
    · rename_i c hc
      obtain rfl := Option.some.inj h
      exact ⟨rfl, t.onGrid?_admits hc⟩
    · exact ih h

theorem admits_fine? {n places : Nat} {d : Decimal} (h : t.fine? places n = some d) :
    d.zeros = 0 ∧ t.admits d.coefficient (Nat.pow 10 d.places) = true := by
  induction n generalizing places with
  | zero => cases h
  | succ n ih =>
    rw [fine?] at h
    split at h
    · rename_i c hc
      obtain rfl := Option.some.inj h
      have := t.onGrid?_admits hc
      rw [Nat.mul_one] at this
      exact ⟨rfl, this⟩
    · exact ih h

/-- **The search ends in the interval**, if the last grid holds the value itself. -/
theorem admits_shortest {places : Nat}
    (hexact : t.admits (t.value * Nat.pow 10 places / t.den) (Nat.pow 10 places) = true) :
    t.admits ((t.shortest places).coefficient * Nat.pow 10 (t.shortest places).zeros)
      (Nat.pow 10 (t.shortest places).places) = true := by
  have hone : Nat.pow 10 0 = 1 := rfl
  unfold shortest
  generalize hj : (Nat.toDigits 10 (t.value / t.den)).length = j
  cases hc : t.coarse? j with
  | some d =>
    obtain ⟨h1, h2⟩ := t.admits_coarse? hc
    rw [Option.some_or, Option.getD_some, h1, hone]
    exact h2
  | none =>
    cases hf : t.fine? 1 places with
    | some d =>
      obtain ⟨h1, h2⟩ := t.admits_fine? hf
      rw [Option.none_or, Option.getD_some, h1, hone, Nat.mul_one]
      exact h2
    | none =>
      rw [Option.none_or, Option.getD_none, hone, Nat.mul_one]
      exact hexact

end Rounding

namespace FloatFormat

variable {fmt : FloatFormat} {m : Nat}

/-- The interval around a magnitude holds its value. -/
theorem rounding_admits_of_eq {n d : Nat} (hd : 0 < d)
    (h : n * Nat.pow 2 fmt.scale = fmt.units m * d) : (fmt.rounding m).admits n d = true := by
  have hn : n * (4 * Nat.pow 2 fmt.scale) = 4 * fmt.units m * d := by
    rw [Nat.mul_left_comm, h, Nat.mul_assoc]
  have hstep : 0 < fmt.step m := two_pow_pos _
  unfold Rounding.admits rounding
  simp only [hn]
  split
  · simp only [Bool.and_eq_true, decide_eq_true_eq]
    exact ⟨Nat.mul_le_mul_right d (Nat.sub_le _ _),
      Nat.mul_le_mul_right d (Nat.le_add_right _ _)⟩
  · rename_i hodd
    simp only [Bool.and_eq_true, decide_eq_true_eq]
    refine ⟨Nat.mul_lt_mul_of_pos_right ?_ hd, Nat.mul_lt_mul_of_pos_right (by omega) hd⟩
    obtain ⟨s, a, hsig, rfl⟩ := exists_isSignificand fmt m
    have hu := units_of_isSignificand hsig
    have hpos : 0 < fmt.units (s * Nat.pow 2 fmt.fractionBits + a) := by
      rw [hu]
      refine Nat.mul_pos ?_ (two_pow_pos s)
      rcases Nat.eq_zero_or_pos a with rfl | ha
      · -- a significand of zero has an even magnitude
        exfalso
        apply hodd
        rcases hsig.2 with rfl | hle
        · rw [Nat.zero_mul]
          rfl
        · have := two_pow_pos fmt.fractionBits
          omega
      · exact ha
    refine Nat.sub_lt (by omega) (Nat.mul_pos ?_ hstep)
    split <;> decide

/-- **The shortest decimal of a magnitude lies in its interval.** -/
theorem admits_shortest (hm : m ≠ 0) :
    (fmt.rounding m).admits ((fmt.shortest m).coefficient * Nat.pow 10 (fmt.shortest m).zeros)
      (Nat.pow 10 (fmt.shortest m).places) = true := by
  unfold shortest
  rw [if_neg hm]
  refine (fmt.rounding m).admits_shortest (rounding_admits_of_eq (ten_pow_pos _) ?_)
  -- on the grid of `10 ^ -scale` every multiple of `2 ^ -scale` is exact
  have h10 : Nat.pow 10 fmt.scale = Nat.pow 5 fmt.scale * Nat.pow 2 fmt.scale :=
    Nat.mul_pow 5 2 fmt.scale
  have hv : (fmt.rounding m).value * Nat.pow 10 fmt.scale =
      fmt.units m * Nat.pow 5 fmt.scale * (fmt.rounding m).den := by
    rw [h10]
    show 4 * fmt.units m * _ = _ * (4 * Nat.pow 2 fmt.scale)
    ring
  have hden : 0 < (fmt.rounding m).den := Nat.mul_pos (by decide) (two_pow_pos _)
  rw [hv, Nat.mul_div_cancel _ hden, Nat.mul_assoc, ← h10]

end FloatFormat

/-! ## The text of a number -/

/-- The text of a finite number: a sign, digits, a point and digits. -/
structure PointText where
  negative : Bool
  whole : Text
  places : Text
  whole_digits : whole.allDigits = true
  places_digits : places.allDigits = true

namespace PointText

/-- The number as it is written. -/
def text (p : PointText) : Text :=
  (if p.negative then ['-'] else []) ++ p.whole ++ '.' :: p.places

/-- The digits on both sides of the point denote this numerator. -/
def numerator (p : PointText) : Nat := valueOf 10 (p.whole ++ p.places)

/-- The power of ten below the numerator. -/
def denominator (p : PointText) : Nat := Nat.pow 10 p.places.length

end PointText

theorem allDigits_iff {s : Text} : s.allDigits = true ↔ s ≠ [] ∧ ∀ c ∈ s, c.isDigit = true := by
  simp only [Text.allDigits, Bool.and_eq_true, Bool.not_eq_true', List.isEmpty_eq_false_iff,
    List.all_eq_true]

theorem allDigits_append {s t : Text} (hs : s.allDigits = true) (ht : t.allDigits = true) :
    (s ++ t).allDigits = true := by
  rw [allDigits_iff] at *
  refine ⟨fun h => hs.1 (List.append_eq_nil_iff.mp h).1, fun c hc => ?_⟩
  rcases List.mem_append.mp hc with hc | hc
  · exact hs.2 c hc
  · exact ht.2 c hc

theorem valueOf_append_zeros (s : Text) (k : Nat) :
    valueOf 10 (s ++ List.replicate k '0') = valueOf 10 s * Nat.pow 10 k := by
  have hz : valueOf 10 (List.replicate k '0') = 0 := by
    induction k with
    | zero => rfl
    | succ k ih =>
      rw [List.replicate_succ', valueOf_append_singleton, ih]
      rfl
  rw [valueOf_append, hz, List.length_replicate]
  rfl

theorem valueOf_zeros_append (s : Text) (k : Nat) :
    valueOf 10 (List.replicate k '0' ++ s) = valueOf 10 s := by
  have hz : valueOf 10 (List.replicate k '0') = 0 := by
    have := valueOf_append_zeros [] k
    rwa [List.nil_append, show valueOf 10 [] = 0 from rfl, Nat.zero_mul] at this
  rw [valueOf_append, hz, Nat.zero_mul, Nat.zero_add]

theorem digits_append_zeros (n k : Nat) :
    ∀ c ∈ decimal n ++ List.replicate k '0', c.isDigit = true := by
  intro c hc
  rcases List.mem_append.mp hc with hc | hc
  · exact (allDigits_iff.mp (allDigits_decimal n)).2 c hc
  · rw [(List.mem_replicate.mp hc).2]
    rfl

theorem not_contains_point {s : Text} (h : ∀ c ∈ s, c.isDigit = true) : s.contains '.' = false := by
  rw [List.contains_eq_mem, decide_eq_false_iff_not]
  intro hc
  have := h _ hc
  revert this
  decide

/-- A decimal in positional notation: digits alone, or digits around a point. -/
theorem toText_cases (d : Decimal) :
    (d.places = 0 ∧ d.toText = decimal d.coefficient ++ List.replicate d.zeros '0') ∨
    ∃ whole places : Text, d.toText = whole ++ '.' :: places ∧ whole.allDigits = true ∧
      places.allDigits = true ∧ places.length = d.places ∧
      valueOf 10 (whole ++ places) = d.coefficient * Nat.pow 10 d.zeros := by
  unfold Decimal.toText
  by_cases hp : d.places = 0
  · left
    exact ⟨hp, if_pos hp⟩
  · right
    dsimp only
    rw [if_neg hp]
    generalize hdigits : decimal d.coefficient ++ List.replicate d.zeros '0' = digits
    generalize hpad : List.replicate (d.places + 1 - digits.length) '0' ++ digits = padded
    have hlen : d.places + 1 ≤ padded.length := by
      rw [← hpad, List.length_append, List.length_replicate]
      omega
    have hall : ∀ c ∈ padded, c.isDigit = true := by
      intro c hc
      rw [← hpad] at hc
      rcases List.mem_append.mp hc with hc | hc
      · rw [(List.mem_replicate.mp hc).2]
        rfl
      · rw [← hdigits] at hc
        exact digits_append_zeros _ _ c hc
    refine ⟨_, _, rfl, ?_, ?_, ?_, ?_⟩
    · rw [allDigits_iff]
      refine ⟨fun h => ?_, fun c hc => hall c (List.mem_of_mem_take hc)⟩
      have := congrArg List.length h
      rw [List.length_take, List.length_nil] at this
      omega
    · rw [allDigits_iff]
      refine ⟨fun h => ?_, fun c hc => hall c (List.mem_of_mem_drop hc)⟩
      have := congrArg List.length h
      rw [List.length_drop, List.length_nil] at this
      omega
    · rw [List.length_drop]
      omega
    · rw [List.take_append_drop, ← hpad, valueOf_zeros_append, ← hdigits, valueOf_append_zeros,
        valueOf_decimal]

/-- A text with a point, put at its end if need be. -/
def withPoint (s : Text) : Text := if s.contains '.' then s else s ++ ['.', '0']

theorem withPoint_append {s t : Text} (h : s.contains '.' = false) :
    withPoint (s ++ t) = s ++ withPoint t := by
  have hc : (s ++ t).contains '.' = t.contains '.' := by
    rw [List.contains_eq_mem, List.contains_eq_mem] at *
    rw [decide_eq_false_iff_not] at h
    simp [h]
  unfold withPoint
  rw [hc]
  split
  · rfl
  · rw [List.append_assoc]

/-- **The text of a finite number** has digits on both sides of a point, and they denote a
fraction in the interval of the number. -/
theorem exists_pointText {fmt : FloatFormat} {x : BinaryFloat fmt} (h : x.isFinite = true) :
    ∃ p : PointText, withPoint x.toText = p.text ∧ p.negative = x.negative ∧
      (x.magnitude = 0 → p.numerator = 0) ∧
      (x.magnitude ≠ 0 → (fmt.rounding x.magnitude).admits p.numerator p.denominator = true) := by
  have hfin : x.magnitude < fmt.infinity := by
    rwa [BinaryFloat.isFinite, decide_eq_true_eq] at h
  have hnan : x.isNaN = false := by
    rw [BinaryFloat.isNaN, decide_eq_false_iff_not]
    omega
  have hsign : (if x.negative then ['-'] else [] : Text).contains '.' = false := by
    cases x.negative <;> decide
  have htext : withPoint x.toText = (if x.negative then ['-'] else []) ++
      withPoint (fmt.shortest x.magnitude).toText := by
    unfold BinaryFloat.toText
    rw [hnan, if_neg (by decide), h, if_pos rfl, withPoint_append hsign]
  have hzero : x.magnitude = 0 → (fmt.shortest x.magnitude).coefficient = 0 := by
    intro h0
    rw [FloatFormat.shortest, if_pos h0]
  have hadm : x.magnitude ≠ 0 →
      (fmt.rounding x.magnitude).admits
        ((fmt.shortest x.magnitude).coefficient * Nat.pow 10 (fmt.shortest x.magnitude).zeros)
        (Nat.pow 10 (fmt.shortest x.magnitude).places) = true := FloatFormat.admits_shortest
  generalize fmt.shortest x.magnitude = d at htext hzero hadm
  rcases toText_cases d with ⟨hp, hd⟩ | ⟨whole, places, hd, hw, hpl, hlen, hval⟩
  · have hdig := digits_append_zeros d.coefficient d.zeros
    have hne : decimal d.coefficient ++ List.replicate d.zeros '0' ≠ [] := fun hn =>
      Nat.toDigits_ne_nil (List.append_eq_nil_iff.mp hn).1
    have hnum : valueOf 10 (decimal d.coefficient ++ List.replicate d.zeros '0' ++ ['0']) =
        d.coefficient * Nat.pow 10 d.zeros * 10 := by
      rw [valueOf_append_singleton, valueOf_append_zeros, valueOf_decimal]
      rfl
    have hw : withPoint d.toText =
        decimal d.coefficient ++ List.replicate d.zeros '0' ++ ['.', '0'] := by
      rw [hd, withPoint, not_contains_point hdig]
      rfl
    refine ⟨⟨x.negative, _, ['0'], allDigits_iff.mpr ⟨hne, hdig⟩, rfl⟩, ?_, rfl, ?_, ?_⟩
    · rw [htext, hw]
      simp only [PointText.text, List.append_assoc]
    · intro h0
      rw [PointText.numerator, hnum, hzero h0, Nat.zero_mul, Nat.zero_mul]
    · intro h0
      have := hadm h0
      rw [hp] at this
      rw [PointText.numerator, hnum]
      exact ((fmt.rounding x.magnitude).admits_mul (k := 10) (by decide)).trans this
  · have hcont : d.toText.contains '.' = true := by
      rw [hd, List.contains_eq_mem, decide_eq_true_eq]
      exact List.mem_append_right _ List.mem_cons_self
    refine ⟨⟨x.negative, whole, places, hw, hpl⟩, ?_, rfl, ?_, ?_⟩
    · rw [htext, withPoint, hcont, if_pos rfl, hd, PointText.text, List.append_assoc]
    · intro h0
      rw [PointText.numerator, hval, hzero h0, Nat.zero_mul]
    · intro h0
      rw [PointText.numerator, PointText.denominator, hval, hlen]
      exact hadm h0

/-! ## Reading the text -/

theorem splitSign_pointText (p : PointText) :
    splitSign p.text = (p.negative, p.whole ++ '.' :: p.places) := by
  obtain ⟨negative, whole, places, hw, hp⟩ := p
  unfold PointText.text
  cases negative with
  | true => rfl
  | false =>
    obtain ⟨hne, hdig⟩ := allDigits_iff.mp hw
    cases whole with
    | nil => exact absurd rfl hne
    | cons c w =>
      have hc := hdig c List.mem_cons_self
      show splitSign (c :: (w ++ '.' :: places)) = (false, c :: (w ++ '.' :: places))
      unfold splitSign
      split
      · rename_i heq
        obtain ⟨rfl, -⟩ := List.cons.inj heq
        exact absurd hc (by decide)
      · rename_i heq
        obtain ⟨rfl, -⟩ := List.cons.inj heq
        exact absurd hc (by decide)
      · rfl

/-- **A literal is read as the number nearest to the fraction that its digits denote.** -/
theorem read?_pointText (fmt : FloatFormat) (p : PointText) : BinaryFloat.read? fmt p.text =
    some ⟨p.negative, fmt.round p.numerator p.denominator⟩ := by
  have hpt : '.' ∉ p.whole := by
    intro hmem
    have := (allDigits_iff.mp p.whole_digits).2 _ hmem
    revert this
    decide
  have hnum : IsNumeral 10 (p.whole ++ p.places) :=
    isNumeral_of_allDigits (allDigits_append p.whole_digits p.places_digits)
  unfold BinaryFloat.read?
  rw [splitSign_pointText, Text.cut?_append '.' hpt]
  dsimp only
  rw [if_pos hnum]
  rfl

theorem round_zero (fmt : FloatFormat) {d : Nat} (hF : 0 < fmt.fractionBits) (hd : 0 < d) :
    fmt.round 0 d = 0 := by
  have hsig : fmt.IsSignificand 0 0 := ⟨two_pow_pos _, Or.inl rfl⟩
  have := FloatFormat.round_of_eq (n := 0) hF hsig (by rw [Nat.zero_mul]; exact Nat.zero_le _) hd
    (by rw [Nat.zero_mul, Nat.zero_mul])
  rwa [Nat.zero_mul] at this

/-- **Reading the text of a finite number gives the number.** -/
theorem exists_pointText_read? {fmt : FloatFormat} (hF : 0 < fmt.fractionBits) {x : BinaryFloat fmt}
    (h : x.isFinite = true) :
    ∃ p : PointText, withPoint x.toText = p.text ∧ BinaryFloat.read? fmt p.text = some x := by
  obtain ⟨p, htext, hneg, hzero, hadm⟩ := exists_pointText h
  refine ⟨p, htext, ?_⟩
  have hfin : x.magnitude < fmt.infinity := by
    rwa [BinaryFloat.isFinite, decide_eq_true_eq] at h
  have hround : fmt.round p.numerator p.denominator = x.magnitude := by
    by_cases h0 : x.magnitude = 0
    · have hden : 0 < p.denominator := ten_pow_pos _
      rw [hzero h0, round_zero _ hF hden, h0]
    · exact FloatFormat.round_of_admits hF (Nat.pos_of_ne_zero h0) (Nat.le_of_lt hfin)
        (ten_pow_pos _) (hadm h0)
  rw [read?_pointText, hneg, hround]

/-! ## Single numbers in the double format -/

/-- **A finite single number is exact in the double format**, and finite there. -/
theorem exists_double_units {m : Nat} (hm : m < single.infinity) :
    ∃ k, double.round (single.units m) (Nat.pow 2 single.scale) = k ∧ k < double.infinity ∧
      double.units k * Nat.pow 2 single.scale = single.units m * Nat.pow 2 double.scale := by
  obtain ⟨s, a, hsig, rfl⟩ := FloatFormat.exists_isSignificand single m
  have hu := FloatFormat.units_of_isSignificand hsig
  obtain ⟨e, he, hsum⟩ : ∃ e, e = 925 ∧ double.scale = e + single.scale := ⟨925, rfl, by decide⟩
  have hscale : Nat.pow 2 double.scale = Nat.pow 2 e * Nat.pow 2 single.scale := by
    rw [hsum, two_pow_add]
  rw [hu]
  rcases Nat.eq_zero_or_pos a with rfl | hpos
  · have h0 : double.units 0 = 0 := rfl
    have hinf : 0 < double.infinity := by decide
    have hround := round_zero double (by decide) (two_pow_pos single.scale)
    generalize Nat.pow 2 single.scale = d₁ at *
    rw [Nat.zero_mul]
    exact ⟨0, hround, hinf, by rw [h0, Nat.zero_mul, Nat.zero_mul]⟩
  · -- shift the significand up to its 53 bits
    have halt : a < Nat.pow 2 24 := hsig.1
    have hne : a ≠ 0 := Nat.pos_iff_ne_zero.mp hpos
    have hlog : a.log2 < 24 := (Nat.log2_lt hne).mpr halt
    have hlow : Nat.pow 2 a.log2 ≤ a := (Nat.le_log2 hne).mp le_rfl
    have hhigh : a < Nat.pow 2 (a.log2 + 1) := (Nat.log2_lt hne).mp (Nat.lt_succ_self _)
    have hs : s ≤ 254 := by
      by_contra hc
      have h1 := Nat.mul_le_mul_right (Nat.pow 2 23) (show 255 ≤ s by omega)
      have h2 : single.infinity = 255 * Nat.pow 2 23 := rfl
      have h3 : single.fractionBits = 23 := rfl
      rw [h3] at hm
      omega
    generalize a.log2 = b at hlog hlow hhigh
    obtain ⟨j, hj⟩ : ∃ j, j + b = 52 := ⟨52 - b, by omega⟩
    obtain ⟨t, ht, hts⟩ : ∃ t, j + t = s + e ∧ t ≤ 1200 := ⟨s + e - j, by omega⟩
    have hsig' : double.IsSignificand t (a * Nat.pow 2 j) := by
      refine ⟨?_, Or.inr ?_⟩
      · have h1 := Nat.mul_lt_mul_of_pos_right hhigh (two_pow_pos j)
        rw [← two_pow_add, show b + 1 + j = double.fractionBits + 1 by
          show _ = 53; omega] at h1
        exact h1
      · have h1 := Nat.mul_le_mul_right (Nat.pow 2 j) hlow
        rw [← two_pow_add, show b + j = double.fractionBits by show _ = 52; omega] at h1
        exact h1
    have hfin : t * Nat.pow 2 double.fractionBits + a * Nat.pow 2 j < double.infinity := by
      have h1 := hsig'.1
      have h2 : double.infinity = 2047 * Nat.pow 2 double.fractionBits := rfl
      have h3 := Nat.mul_le_mul_right (Nat.pow 2 double.fractionBits) hts
      rw [two_pow_succ] at h1
      omega
    have hval : a * Nat.pow 2 j * Nat.pow 2 t = a * Nat.pow 2 s * Nat.pow 2 e := by
      rw [Nat.mul_assoc, ← two_pow_add, ht, two_pow_add, Nat.mul_assoc]
    have hpos₁ := two_pow_pos single.scale
    have hu' := FloatFormat.units_of_isSignificand hsig'
    rw [hscale]
    generalize Nat.pow 2 single.scale = d₁ at *
    generalize Nat.pow 2 e = d₂ at *
    refine ⟨_, FloatFormat.round_of_eq (by decide) hsig' (Nat.le_of_lt hfin) hpos₁ ?_, hfin, ?_⟩
    · rw [hscale, Nat.mul_left_comm (a * Nat.pow 2 j) d₁, hval]
      rw [Nat.mul_comm d₂ d₁, Nat.mul_left_comm]
    · rw [hu', hval]
      exact Nat.mul_assoc _ _ _

/-- **Widening a finite single number keeps it finite, and narrowing gives it back.** -/
theorem convert_single_convert_double {x : BinaryFloat single} (h : x.isFinite = true) :
    (x.convert double).isFinite = true ∧ (x.convert double).convert single = x := by
  have hm : x.magnitude < single.infinity := by
    rwa [BinaryFloat.isFinite, decide_eq_true_eq] at h
  obtain ⟨k, hk, hkfin, hunits⟩ := exists_double_units hm
  have hd : x.convert double = ⟨x.negative, k⟩ := by
    unfold BinaryFloat.convert
    rw [h, if_pos rfl, hk]
  have hfin : (x.convert double).isFinite = true := by
    rw [hd, BinaryFloat.isFinite, decide_eq_true_eq]
    exact hkfin
  refine ⟨hfin, ?_⟩
  rw [hd] at hfin ⊢
  have hround : single.round (double.units k) (Nat.pow 2 double.scale) = x.magnitude := by
    obtain ⟨s, a, hsig, hx⟩ := FloatFormat.exists_isSignificand single x.magnitude
    rw [hx] at hm hunits ⊢
    refine FloatFormat.round_of_eq (by decide) hsig (Nat.le_of_lt hm) (two_pow_pos _) ?_
    rw [hunits, FloatFormat.units_of_isSignificand hsig]
    ring
  unfold BinaryFloat.convert
  rw [hfin, if_pos rfl, hround]

theorem isFinite_of_convert_double {x : BinaryFloat single}
    (h : (x.convert double).isFinite = true) : x.isFinite = true := by
  by_contra hc
  rw [BinaryFloat.isFinite, BinaryFloat.convert, if_neg hc] at h
  split at h
  · rw [decide_eq_true_eq] at h
    exact absurd h (Nat.not_lt.mpr (Nat.le_add_right _ _))
  · rw [decide_eq_true_eq] at h
    exact absurd h (Nat.lt_irrefl _)

/-! ## Fields -/

theorem toBytes_ofBits (fmt : FloatFormat) (bs : Bytes) (hlen : bs.length = fmt.byteWidth)
    (hbits : Nat.pow 256 fmt.byteWidth = 2 * Nat.pow 2 (fmt.exponentBits + fmt.fractionBits)) :
    (BinaryFloat.ofBits fmt (ofBigEndian bs)).toBytes = bs := by
  have hlt := ofBigEndian_lt bs
  rw [hlen, hbits] at hlt
  have hbits' : (BinaryFloat.ofBits fmt (ofBigEndian bs)).toBits = ofBigEndian bs := by
    unfold BinaryFloat.toBits BinaryFloat.ofBits
    have hp := two_pow_pos (fmt.exponentBits + fmt.fractionBits)
    generalize Nat.pow 2 (fmt.exponentBits + fmt.fractionBits) = p at *
    have hdiv := Nat.div_add_mod' (ofBigEndian bs) p
    have hq : ofBigEndian bs / p < 2 := (Nat.div_lt_iff_lt_mul hp).mpr hlt
    simp only [decide_eq_true_eq]
    generalize ofBigEndian bs / p = q at *
    obtain rfl | rfl : q = 0 ∨ q = 1 := by omega
    · rw [if_neg (by decide)]
      omega
    · rw [if_pos (by decide)]
      omega
  rw [BinaryFloat.toBytes, hbits', ← hlen, bigEndian_ofBigEndian]

theorem floatText_eq {x : BinaryFloat double} (h : x.isFinite = true) (asSingle : Bool) :
    floatText x asSingle =
      withPoint (if asSingle then (x.convert single).toText else x.toText) := by
  unfold floatText withPoint
  dsimp only
  rw [h, Bool.true_and]
  generalize (if asSingle = true then (x.convert single).toText else x.toText) = text
  cases text.contains '.' <;> rfl

/-- **The literal of a finite field gives the bytes of the field back** at the width of the
field. -/
theorem exists_floatText {bs : Bytes} {x : BinaryFloat double}
    (hx : BinaryFloat.ofBytes? bs = some x) (hfin : x.isFinite = true) :
    ∃ p : PointText, floatText x (bs.length == 4) = p.text ∧
      floatBytes (some bs.length) p.text = .ok bs := by
  unfold BinaryFloat.ofBytes? at hx
  split at hx
  · rename_i hlen
    obtain rfl := Option.some.inj hx
    have hsfin := isFinite_of_convert_double hfin
    obtain ⟨p, htext, hread⟩ := exists_pointText_read? (by decide) hsfin
    refine ⟨p, ?_, ?_⟩
    · rw [floatText_eq hfin, hlen, if_pos (by decide), (convert_single_convert_double hsfin).2,
        htext]
    · have hb := toBytes_ofBits single bs hlen (by decide)
      unfold floatBytes
      rw [hlen, if_neg (by decide), hread, Option.map_some, hb]
  · rename_i hlen
    obtain rfl := Option.some.inj hx
    obtain ⟨p, htext, hread⟩ := exists_pointText_read? (by decide) hfin
    refine ⟨p, ?_, ?_⟩
    · rw [floatText_eq hfin, hlen, if_neg (by decide), htext]
    · have hb := toBytes_ofBits double bs hlen (by decide)
      unfold floatBytes
      rw [hlen, if_pos (by decide), hread, Option.map_some, hb]
  · cases hx

end ByteScript
