import Mathlib.Data.List.Basic
import ByteScript.Proofs.Literal.Quotation
import ByteScript.Proofs.Outcome

/-!
# The escapes of a body

A body that is not raw is read from left to right: a character, or a backslash and what belongs to
it. What belongs to a letter with hexadecimal digits is settled by their number alone, before any of
them is looked at, so that every text falls into parts; whether a part has a value is seen from the
part itself.

The reader of numbers takes a plus sign in front of them. So a part may have a value with a plus sign
in the place of its first digit, and it is then the code point that the digits after it denote.

* `BodyPart`, `partsOf`: the parts of a body; `flatMap_text_partsOf`: together they are the body;
* `BodyPart.IsRead`, `BodyPart.value`, `BodyPart.complaint`: what becomes of a part;
* `codePoint_eq`, `BodyPart.read`, `readEscape_eq`, `expand_eq`: the value of a body is that of its
  parts;
* `forall_isHexDigit_iff`: where all the digits are digits;
* **`unquote_parts`**: the value of a literal, part by part.
-/

namespace ByteScript

/-! ## Parts -/

/-- A part of a body that is not raw. -/
inductive BodyPart where
  /-- A character that is no backslash. -/
  | char (c : Char)
  /-- A backslash and a character with no digits. -/
  | short (c : Char)
  /-- A backslash and octal digits. -/
  | octal (digits : Text)
  /-- A backslash, a letter and what stands in the places of its hexadecimal digits. -/
  | hex (letter : Char) (digits : Text)
  /-- A backslash at the end. -/
  | lone
deriving DecidableEq

namespace BodyPart

/-- The characters of a part. -/
def text : BodyPart → Text
  | char c => [c]
  | short c => ['\\', c]
  | octal digits => '\\' :: digits
  | hex letter digits => '\\' :: letter :: digits
  | lone => ['\\']

/-- The part has a value: as many characters as its letter asks for are a number, and the number is
a code point. -/
def IsRead : BodyPart → Prop
  | hex letter digits => hexEscapeLength? letter = some digits.length ∧
      IsNumeral 16 (withoutPlus digits) ∧ (valueOf 16 (withoutPlus digits)).isValidChar
  | lone => False
  | _ => True

instance (p : BodyPart) : Decidable p.IsRead := by
  cases p <;> unfold IsRead <;> infer_instance

/-- What a part that has a value stands for. -/
def value : BodyPart → Text
  | char c => [c]
  | short c => (simpleEscape? c).getD ['\\', c]
  | octal digits => [Char.ofNat (valueOf 8 digits)]
  | hex _ digits => [Char.ofNat (valueOf 16 (withoutPlus digits))]
  | lone => []

/-- The text in the error for a part without a value: the digits, or the whole part if their bytes
are not as many as its letter asks for. -/
def complaint : BodyPart → Text
  | hex letter digits =>
    if hexEscapeLength? letter = some digits.utf8Size then digits else '\\' :: letter :: digits
  | p => p.text

end BodyPart

/-- The part that starts with a backslash and `c`, with `s` after it. -/
def escapeOf (c : Char) (s : Text) : BodyPart :=
  match hexEscapeLength? c with
  | some n => .hex c (s.take n)
  | none =>
    if isOctalDigit c then .octal (c :: (s.take 2).takeWhile isOctalDigit) else .short c

/-- The parts of a body, from left to right. -/
def partsOf : Text → List BodyPart
  | [] => []
  | '\\' :: [] => [.lone]
  | '\\' :: c :: s => escapeOf c s :: partsOf (s.drop ((escapeOf c s).text.length - 2))
  | c :: s => .char c :: partsOf s
termination_by s => s.length

section Escape

variable {c : Char} {s : Text}

/-- The characters of an escape are those that the text has there. -/
theorem text_escapeOf (c : Char) (s : Text) :
    (escapeOf c s).text = '\\' :: c :: s.take ((escapeOf c s).text.length - 2) := by
  have htake : ∀ p : Text, p <+: s → p = s.take p.length := fun p hp =>
    List.prefix_iff_eq_take.mp hp
  unfold escapeOf
  split
  · simp [BodyPart.text]
  · split
    · have := htake _ ((List.takeWhile_prefix isOctalDigit).trans (List.take_prefix 2 s))
      simpa [BodyPart.text] using this
    · simp [BodyPart.text]

/-- **The parts of a body together are the body.** -/
theorem flatMap_text_partsOf (s : Text) : (partsOf s).flatMap BodyPart.text = s := by
  fun_induction partsOf s with
  | case1 => rfl
  | case2 => rfl
  | case3 c s ih =>
    have hfirst := congrArg (· ++ s.drop ((escapeOf c s).text.length - 2)) (text_escapeOf c s)
    rw [List.flatMap_cons, ih]
    simpa using hfirst
  | case4 c s _ _ ih => simp [ih, BodyPart.text]

/-- The letters with hexadecimal digits. -/
theorem mem_of_hexEscapeLength? {n : Nat} (h : hexEscapeLength? c = some n) :
    (c, n) ∈ [('x', 2), ('u', 4), ('U', 8)] := by
  unfold hexEscapeLength? at h
  split at h <;> cases h <;> decide

theorem simpleEscape?_of_isOctalDigit (h : isOctalDigit c = true) : simpleEscape? c = none := by
  unfold simpleEscape?
  split
  all_goals first | rfl | exact absurd h (by decide)

end Escape

/-! ## Values -/

/-- A number is a code point or not, with a plus sign before it or without one. -/
theorem codePoint_eq {radix : Nat} (digits : Text) : codePoint radix digits =
    if IsNumeral radix (withoutPlus digits) ∧ (valueOf radix (withoutPlus digits)).isValidChar then
      .ok (Char.ofNat (valueOf radix (withoutPlus digits)))
    else .error (.badEscape digits) := by
  unfold codePoint unsigned? natural?
  by_cases hn : IsNumeral radix (withoutPlus digits)
  · rw [if_pos hn]
    generalize valueOf radix (withoutPlus digits) = v
    by_cases hv : v.isValidChar
    · have hbits : v < Nat.pow 2 32 := by
        have : v < 0x110000 := hv.elim (fun h => Nat.lt_trans h (by decide)) And.right
        exact Nat.lt_trans this (by decide)
      rw [if_pos ⟨hn, hv⟩, Option.filter_some, decide_eq_true hbits, if_pos rfl, Option.bind_some,
        char?, dif_pos hv, Char.ofNat, dif_pos hv]
    · have hnone : ((some v).filter (· < Nat.pow 2 32)).bind char? = none := by
        rw [Option.filter_some]
        split
        · rw [Option.bind_some, char?, dif_neg hv]
        · rfl
      rw [hnone, if_neg fun h => hv h.2]
  · rw [if_neg hn, if_neg fun h => hn h.1]
    rfl

theorem digitValue_lt_eight {c : Char} (h : isOctalDigit c = true) : digitValue c < 8 := by
  rw [isOctalDigit, Bool.and_eq_true, decide_eq_true_eq, decide_eq_true_eq, le_iff_toNat,
    le_iff_toNat] at h
  change 48 ≤ c.toNat ∧ c.toNat ≤ 55 at h
  rw [digitValue, if_pos (isDigit_iff.mpr (by omega))]
  change c.toNat - 48 < 8
  omega

/-- Up to three octal digits are a code point. -/
theorem codePoint_octal {digits : Text} (hne : digits ≠ [])
    (h : ∀ c ∈ digits, isOctalDigit c = true) (hlength : digits.length ≤ 3) :
    codePoint 8 digits = .ok (Char.ofNat (valueOf 8 digits)) := by
  have hnumeral : IsNumeral 8 digits := ⟨hne, fun c hc => digitValue_lt_eight (h c hc)⟩
  have hlt : valueOf 8 digits < 512 :=
    calc valueOf 8 digits < Nat.pow 8 digits.length := valueOf_lt hnumeral.2
      _ ≤ Nat.pow 8 3 := Nat.pow_le_pow_right (by decide) hlength
  rw [codePoint_eq, withoutPlus_of_isNumeral (by decide) hnumeral,
    if_pos ⟨hnumeral, Or.inl (Nat.lt_trans hlt (by decide))⟩]

/-- A numeral is in ASCII, with a plus sign before it or without one. -/
theorem utf8Size_of_isNumeral {digits : Text} (h : IsNumeral 16 (withoutPlus digits)) :
    digits.utf8Size = digits.length := by
  have hascii : ∀ c ∈ withoutPlus digits, c.toNat < 128 := by
    intro c hc
    have := isHexDigit_iff.mp (digitValue_lt_sixteen_iff.mp (h.2 c hc))
    omega
  refine utf8Size_of_ascii fun c hc => ?_
  unfold withoutPlus at hascii
  split at hascii
  · rcases List.mem_cons.mp hc with rfl | hc
    · decide
    · exact hascii c hc
  · exact hascii c hc

/-- The value of a part after its first two characters, or the error that names the part. -/
def BodyPart.read (p : BodyPart) : Except LiteralError Escape :=
  if p.IsRead then .ok ⟨p.value, p.text.length - 2⟩ else .error (.badEscape p.complaint)

/-- The digits of a letter are read after their bytes are counted. -/
theorem readEscape_hex {c : Char} {n : Nat} (hhex : hexEscapeLength? c = some n) (s : Text) :
    readEscape c s = (BodyPart.hex c (s.take n)).read := by
  have hsimple : simpleEscape? c = none := by
    have := mem_of_hexEscapeLength? hhex
    simp only [List.mem_cons, Prod.mk.injEq, List.not_mem_nil, or_false] at this
    rcases this with ⟨rfl, -⟩ | ⟨rfl, -⟩ | ⟨rfl, -⟩ <;> rfl
  simp only [readEscape, hsimple, BodyPart.read, BodyPart.IsRead, BodyPart.value,
    BodyPart.complaint, BodyPart.text, hhex, Option.some.injEq]
  generalize s.take n = digits
  by_cases hsize : Text.utf8Size digits = n
  · rw [if_pos hsize, if_pos hsize.symm, codePoint_eq]
    by_cases hread : IsNumeral 16 (withoutPlus digits) ∧
        (valueOf 16 (withoutPlus digits)).isValidChar
    · have hlength : n = digits.length := hsize ▸ utf8Size_of_isNumeral hread.1
      rw [if_pos hread, if_pos ⟨hlength, hread⟩, hlength]
      rfl
    · rw [if_neg hread, if_neg fun h => hread h.2]
      rfl
  · have hunread : ¬ (n = digits.length ∧ IsNumeral 16 (withoutPlus digits) ∧
        (valueOf 16 (withoutPlus digits)).isValidChar) := fun h =>
      hsize ((utf8Size_of_isNumeral h.2.1).trans h.1.symm)
    rw [if_neg hsize, if_neg hunread, if_neg (Ne.symm hsize)]

/-- An octal digit is read with up to two more. -/
theorem readEscape_octal {c : Char} (hoctal : isOctalDigit c = true)
    (hhex : hexEscapeLength? c = none) (s : Text) :
    readEscape c s = (BodyPart.octal (c :: (s.take 2).takeWhile isOctalDigit)).read := by
  have hall : ∀ d ∈ c :: (s.take 2).takeWhile isOctalDigit, isOctalDigit d = true :=
    List.forall_mem_cons.mpr ⟨hoctal, List.all_eq_true.mp List.all_takeWhile⟩
  have hlength : (c :: (s.take 2).takeWhile isOctalDigit).length ≤ 3 := by
    have h₁ := (List.takeWhile_prefix (l := s.take 2) isOctalDigit).length_le
    have h₂ := List.length_take_le 2 s
    rw [List.length_cons]
    omega
  have hread : (BodyPart.octal (c :: (s.take 2).takeWhile isOctalDigit)).IsRead := trivial
  rw [BodyPart.read, if_pos hread]
  simp only [readEscape, simpleEscape?_of_isOctalDigit hoctal, hhex]
  rw [if_pos hoctal, codePoint_octal (List.cons_ne_nil _ _) hall hlength]
  rfl

/-- Any other character is read by itself. -/
theorem readEscape_short {c : Char} (hoctal : ¬ isOctalDigit c = true)
    (hhex : hexEscapeLength? c = none) (s : Text) :
    readEscape c s = (BodyPart.short c).read := by
  have hread : (BodyPart.short c).IsRead := trivial
  rw [BodyPart.read, if_pos hread, readEscape, hhex]
  cases hsimple : simpleEscape? c with
  | some v => simp [BodyPart.value, BodyPart.text, hsimple]
  | none => simp [BodyPart.value, BodyPart.text, hsimple, hoctal]

/-- **An escape is read by itself.** It has the value of its part, or the error names the part. -/
theorem readEscape_eq (c : Char) (s : Text) : readEscape c s = (escapeOf c s).read := by
  unfold escapeOf
  split
  · next hhex => exact readEscape_hex hhex s
  · next hhex =>
    split
    · next hoctal => exact readEscape_octal hoctal hhex s
    · next hoctal => exact readEscape_short hoctal hhex s

/-- **A body has the value of its parts**, and otherwise the error of the first one without a
value. -/
theorem expand_eq (s : Text) : expand s = match (partsOf s).find? fun p => ¬ p.IsRead with
    | none => .ok ((partsOf s).flatMap BodyPart.value)
    | some p => .error (.badEscape p.complaint) := by
  fun_induction partsOf s with
  | case1 => rw [expand]; rfl
  | case2 => rw [expand]; rfl
  | case3 c s ih =>
    rw [expand, readEscape_eq, BodyPart.read]
    by_cases hread : (escapeOf c s).IsRead
    · rw [if_pos hread, ok_bind, ih, List.find?_cons_of_neg (by simpa using hread)]
      dsimp only
      cases (partsOf _).find? _ <;> rfl
    · rw [if_neg hread, List.find?_cons_of_pos (by simpa using hread)]
      rfl
  | case4 c s h₁ h₂ ih =>
    rw [expand_plain (ne_backslash h₁ h₂), ih, List.find?_cons_of_neg (by simp [BodyPart.IsRead])]
    cases (partsOf s).find? _ <;> rfl

/-! ## Digits -/

/-- **The digits of a part with a value** are digits, unless a plus sign comes first. -/
theorem forall_isHexDigit_iff {digits : Text} (h : IsNumeral 16 (withoutPlus digits)) :
    (∀ c ∈ digits, isHexDigit c = true) ↔ digits.head? ≠ some '+' := by
  constructor
  · intro hdigits hhead
    have hplus := hdigits '+' (List.mem_of_mem_head? hhead)
    exact absurd hplus (by decide)
  · intro hhead
    have hself : withoutPlus digits = digits := by
      unfold withoutPlus
      split
      · exact absurd rfl hhead
      · rfl
    rw [hself] at h
    exact fun c hc => digitValue_lt_sixteen_iff.mp (h.2 c hc)

/-- **The value of a literal, part by part.** The parts of the body together are the body. The
literal has their values in a row, or the error of the first one without a value. Where there is a
value, each letter has as many characters as it asks for and stands for the code point that they
denote; these are hexadecimal digits exactly if the first one is no plus sign. -/
theorem unquote_parts {s : Text} {l : Literal} (hl : Literal.ofText? s = some l)
    (hformatted : l.isFormatted = false) (hraw : l.isRaw = false) :
    (partsOf l.body).flatMap BodyPart.text = l.body ∧
    (unquote s = match (partsOf l.body).find? fun p => ¬ p.IsRead with
      | none => .ok ((partsOf l.body).flatMap BodyPart.value)
      | some p => .error (.badEscape p.complaint)) ∧
    ∀ t, unquote s = .ok t → ∀ letter digits, .hex letter digits ∈ partsOf l.body →
      hexEscapeLength? letter = some digits.length ∧
      (∃ c : Char, (BodyPart.hex letter digits).value = [c] ∧
        c.toNat = valueOf 16 (withoutPlus digits)) ∧
      ((∀ c ∈ digits, isHexDigit c = true) ↔ digits.head? ≠ some '+') := by
  have hvalue : unquote s = expand l.body := by
    simp only [unquote, hl, Literal.value, hformatted, hraw, Bool.false_eq_true, if_false]
  refine ⟨flatMap_text_partsOf l.body, hvalue.trans (expand_eq l.body), ?_⟩
  intro t ht letter digits hmem
  have hread : (BodyPart.hex letter digits).IsRead := by
    by_contra hunread
    obtain ⟨p, hp⟩ : ∃ p, ((partsOf l.body).find? fun p => ¬ p.IsRead) = some p := by
      rw [← Option.isSome_iff_exists, List.find?_isSome]
      exact ⟨_, hmem, by simpa using hunread⟩
    rw [hvalue, expand_eq, hp] at ht
    cases ht
  obtain ⟨hlength, hnumeral, hvalid⟩ := hread
  refine ⟨hlength, ⟨_, rfl, ?_⟩, forall_isHexDigit_iff hnumeral⟩
  rw [Char.ofNat, dif_pos hvalid]
  rfl

/-- A plus sign, four digits and octal ones; then the same with one character that is no digit. -/
theorem unquote_parts_plus :
    unquote "'\\x+4\\u00e9\\1012'".toList = .ok "\x04\u00e9A2".toList ∧
      unquote "'\\x+4\\u00g9\\1012'".toList = .error (.badEscape "00g9".toList) := by
  have hvalue := (@unquote_parts "'\\x+4\\u00e9\\1012'".toList
    ⟨[], ⟨'\'', false⟩, "\\x+4\\u00e9\\1012".toList⟩ (by decide +kernel) rfl rfl).2.1
  have herror := (@unquote_parts "'\\x+4\\u00g9\\1012'".toList
    ⟨[], ⟨'\'', false⟩, "\\x+4\\u00g9\\1012".toList⟩ (by decide +kernel) rfl rfl).2.1
  refine ⟨hvalue.trans ?_, herror.trans ?_⟩
  · decide +kernel
  · decide +kernel

/-- **The characters after a letter need not be digits** where there is a value. -/
theorem not_forall_isHexDigit : ¬ ∀ (s : Text) (l : Literal) (t : Text),
    Literal.ofText? s = some l → l.isRaw = false → unquote s = .ok t →
      ∀ letter digits, .hex letter digits ∈ partsOf l.body →
        hexEscapeLength? letter = some digits.length ∧ ∀ c ∈ digits, isHexDigit c = true := by
  intro h
  have hplus := (h "'\\x+4'".toList ⟨[], ⟨'\'', false⟩, "\\x+4".toList⟩ ['\x04'] (by decide +kernel)
    rfl (by decide +kernel) 'x' "+4".toList (by decide +kernel)).2
  exact absurd (hplus '+' List.mem_cons_self) (by decide)

end ByteScript
