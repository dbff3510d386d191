/-!
# Texts and byte strings

Texts are lists of characters and byte strings lists of octets, so that every scanner and printer
of the library is a function by recursion on a list. Positions in a text are counted in the bytes
of its UTF-8 form.

* `Text.utf8Size`, `Text.newlines`: the two measures behind offsets and line numbers;
* `Text.lower`: case folding of the ASCII letters;
* `Text.sameLetters`, `Text.allDigits`: spellings and runs of digits;
* `Text.cut?`: the parts of a text around a first mark.
-/

namespace ByteScript

/-- A text: its characters in order. -/
abbrev Text : Type := List Char

/-- A byte string. -/
abbrev Bytes : Type := List UInt8

namespace Text

/-! ## Measures -/

/-- The number of bytes of a text in UTF-8. -/
def utf8Size : Text → Nat
  | [] => 0
  | c :: s => c.utf8Size + utf8Size s

@[simp] theorem utf8Size_nil : utf8Size [] = 0 := rfl

@[simp] theorem utf8Size_cons (c : Char) (s : Text) :
    utf8Size (c :: s) = c.utf8Size + utf8Size s := rfl

@[simp] theorem utf8Size_append (s t : Text) : utf8Size (s ++ t) = utf8Size s + utf8Size t := by
  induction s with
  | nil => simp
  | cons c s ih => simp [ih, Nat.add_assoc]

/-- The number of line feeds in a text. -/
def newlines (s : Text) : Nat := s.count '\n'

@[simp] theorem newlines_nil : newlines [] = 0 := rfl

@[simp] theorem newlines_append (s t : Text) : newlines (s ++ t) = newlines s + newlines t := by
  simp [newlines]

/-! ## Characters -/

/-- An ASCII letter in lower case; any other character is kept. -/
def lowerChar (c : Char) : Char := if c.isUpper then Char.ofNat (c.toNat + 32) else c

/-- A text with its ASCII letters in lower case. -/
def lower (s : Text) : Text := s.map lowerChar

theorem length_lower (s : Text) : (lower s).length = s.length := by simp [lower]

/-- The two spellings differ at most in the case of ASCII letters. -/
def sameLetters (s t : Text) : Bool := lower s == lower t

/-- A nonempty run of ASCII digits and nothing else. -/
def allDigits (s : Text) : Bool := !s.isEmpty && s.all Char.isDigit

/-! ## Taking apart -/

/-- The parts before and after the first `mark`. -/
def cut? (mark : Char) : Text → Option (Text × Text)
  | [] => none
  | c :: s => if c = mark then some ([], s) else (cut? mark s).map fun p => (c :: p.1, p.2)

theorem cut?_append (mark : Char) {s : Text} (h : mark ∉ s) (t : Text) :
    cut? mark (s ++ mark :: t) = some (s, t) := by
  induction s with
  | nil => simp [cut?]
  | cons c s ih =>
    simp only [List.mem_cons, not_or] at h
    simp [cut?, Ne.symm h.1, ih h.2]

theorem eq_of_cut? {mark : Char} {s : Text} {p : Text × Text} (h : cut? mark s = some p) :
    s = p.1 ++ mark :: p.2 := by
  induction s generalizing p with
  | nil => cases h
  | cons c s ih =>
    rw [cut?] at h
    split at h
    · next hc =>
      obtain rfl := Option.some.inj h
      rw [hc, List.nil_append]
    · obtain ⟨q, hq, rfl⟩ := Option.map_eq_some_iff.mp h
      rw [List.cons_append, ← ih hq]

end Text

end ByteScript
