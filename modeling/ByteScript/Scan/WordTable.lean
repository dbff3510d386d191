import ByteScript.Scan.Table
import ByteScript.Text.Blank

/-!
# Tables of words and numbers

Four small tables over the same three kinds. They differ in which pattern comes first and in
whether the blank pattern may match nothing, which is where the rules of `Table.next` show.

* `WordKind`: words, numbers, blanks and the rest;
* `wordTable`, `spaceFirstTable`, `overlapTable`, `shortFirstTable`.
-/

namespace ByteScript

/-- The kinds of the small tables. -/
inductive WordKind where
  | word
  | number
  | space
  | bad
deriving DecidableEq

/-- Words, then numbers, then blanks; the blank pattern may match nothing. -/
def wordTable : Table WordKind where
  patterns :=
    [(.word, Pattern.many1 Char.isLower), (.number, Pattern.many1 Char.isDigit),
      (.space, Pattern.many isBlank)]
  mismatch := .bad

/-- Blanks first, although their pattern may match nothing. -/
def spaceFirstTable : Table WordKind where
  patterns :=
    [(.space, Pattern.many isBlank), (.word, Pattern.many1 Char.isLower),
      (.number, Pattern.many1 Char.isDigit)]
  mismatch := .bad

/-- Numbers that may hold letters, before words. -/
def overlapTable : Table WordKind where
  patterns :=
    [(.number, Pattern.many1 fun c => c.isDigit || c.isLower), (.word, Pattern.many1 Char.isLower),
      (.space, Pattern.times 1 isBlank)]
  mismatch := .bad

/-- Words of one letter before numbers of two characters. -/
def shortFirstTable : Table WordKind where
  patterns :=
    [(.word, Pattern.times 1 Char.isLower),
      (.number, Pattern.times 2 fun c => c.isDigit || c.isLower),
      (.space, Pattern.optional (· == ' '))]
  mismatch := .bad

/-- An empty match of the first pattern does not hide the others. -/
example : spaceFirstTable.next ['a', 'b', '1'] = (.word, 2) := by decide

end ByteScript
