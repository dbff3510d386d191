import ByteScript.Text.Basic

/-!
# Blank characters

The characters with the Unicode property `White_Space`, and trimming by them.

* `isBlank`: membership in the table;
* `Text.trim`: a text without the blanks at its two ends.
-/

namespace ByteScript

/-- The code points with the property `White_Space`, as closed ranges. -/
def blankRanges : List (Nat × Nat) :=
  [(0x09, 0x0d), (0x20, 0x20), (0x85, 0x85), (0xa0, 0xa0), (0x1680, 0x1680), (0x2000, 0x200a),
    (0x2028, 0x2029), (0x202f, 0x202f), (0x205f, 0x205f), (0x3000, 0x3000)]

/-- The character has the property `White_Space`. -/
def isBlank (c : Char) : Bool := blankRanges.any fun r => r.1 ≤ c.toNat && c.toNat ≤ r.2

/-- The property is that of 25 characters. -/
example : (blankRanges.map fun r => r.2 + 1 - r.1).sum = 25 := by decide

namespace Text

/-- A text without its leading blanks. -/
def trimStart (s : Text) : Text := s.dropWhile isBlank

/-- A text without its trailing blanks. -/
def trimEnd : Text → Text
  | [] => []
  | c :: s =>
    match trimEnd s with
    | [] => if isBlank c then [] else [c]
    | t => c :: t

/-- A text without the blanks at its two ends. -/
def trim (s : Text) : Text := trimEnd (trimStart s)

end Text

end ByteScript
