import ByteScript.Text.Blank
import ByteScript.Number.Digits

/-!
# Field specs

A field spec names what is read next: a type and a repeat count between brackets, a letter for the
format, and a name for the value. Lines of a layout hold any number of specs; what stands between
them is passed over.

* `FieldFormat`, `RepeatLength`, `Field`;
* `Field.ofLine`: the specs of a line;
* `Field.display`: a spec as text, in the form in which messages show it.
-/

namespace ByteScript

/-- How the value of a field is written. -/
inductive FieldFormat where
  | float
  | binary
  | hex
  | decimal
  | text
  /-- By the name of the value, if it has one. -/
  | define
  /-- By the structure that the value of a capture selects. -/
  | switch
deriving DecidableEq

/-- How often a field is repeated. -/
inductive RepeatLength where
  | once
  | count (n : Nat)
  /-- As often as the value of a capture says. -/
  | capture (name : Text)
deriving DecidableEq

/-- A field of a layout. -/
structure Field where
  type : Text
  length : RepeatLength
  format : FieldFormat
  /-- The name under which the value is kept. -/
  capture : Option Text
deriving DecidableEq

namespace FieldFormat

/-- The format of a letter. -/
def ofChar? : Char → Option FieldFormat
  | 'x' | 'h' => some .hex
  | 'd' => some .decimal
  | 'b' => some .binary
  | 'f' => some .float
  | 's' | 'c' => some .text
  | '!' => some .define
  | '?' => some .switch
  | _ => none

/-- The letter of a format. -/
def toChar : FieldFormat → Char
  | .float => 'f'
  | .binary => 'b'
  | .hex => 'h'
  | .decimal => 'd'
  | .text => 's'
  | .define => '!'
  | .switch => '?'

/-- **Every format is that of its letter.** -/
theorem ofChar?_toChar (f : FieldFormat) : ofChar? f.toChar = some f := by cases f <;> rfl

end FieldFormat

/-- The repeat count after a colon: digits for themselves, anything else the name of a capture. -/
def RepeatLength.ofText (s : Text) : RepeatLength :=
  if s.allDigits then
    match size? s with
    | some n => .count n
    | none => .capture s
  else .capture (s.dropWhile (· == '$'))

namespace Field

/-! ## Reading -/

/-- The type in a pair of brackets: what stands before the first colon. -/
def typeOf (inside : Text) : Text := Text.trim (inside.takeWhile (· != ':'))

/-- The repeat count in a pair of brackets: what stands after the first colon. -/
def lengthOf (inside : Text) : RepeatLength :=
  match inside.dropWhile (· != ':') with
  | [] => .once
  | _ :: s => .ofText (Text.trim s)

/-- The format at the start of a text and what follows it; decimal if there is no letter. -/
def formatAt : Text → FieldFormat × Text
  | [] => (.decimal, [])
  | c :: s =>
    match FieldFormat.ofChar? c with
    | some f => (f, s)
    | none => (.decimal, c :: s)

/-- A character of the name of a capture. -/
def isCaptureChar (c : Char) : Bool := c.isAlphanum || c == '_'

/-- The name of a capture at the start of a text, after blanks and a dollar sign. -/
def captureAt (s : Text) : Option Text :=
  match s.dropWhile isBlank with
  | '$' :: r => if r.takeWhile isCaptureChar = [] then none else some (r.takeWhile isCaptureChar)
  | _ => none

/-- The field of a pair of brackets and of what follows it. -/
def ofParts (inside after : Text) : Field where
  type := typeOf inside
  length := lengthOf inside
  format := (formatAt after).1
  capture := captureAt (formatAt after).2

/-- The specs of a line: each starts at the first bracket left and ends after the next closing
one, its letter and its name; without a closing bracket there is none. -/
def ofLine : Text → List Field
  | [] => []
  | c :: s =>
    if c = '[' then
      let inside := s.takeWhile (· != ']')
      if inside.length < s.length then
        ofParts inside (s.drop (inside.length + 1)) :: ofLine (s.drop (inside.length + 1))
      else []
    else ofLine s
termination_by s => s.length
decreasing_by
  · rw [List.length_drop, List.length_cons]
    exact Nat.lt_succ_of_le (Nat.sub_le _ _)
  · exact Nat.lt_succ_self _

/-! ## Writing -/

/-- A spec as text. -/
def display (f : Field) : Text :=
  let length : Text :=
    match f.length with
    | .once => []
    | .count n => ':' :: decimal n
    | .capture name => ':' :: '$' :: name
  let capture : Text := (f.capture.map fun name => '$' :: name).getD []
  '[' :: f.type ++ length ++ [']', f.format.toChar] ++ capture

example : (ofLine "x [short: $n]x $v [2]".toList).map display =
    ["[short:$n]h$v".toList, "[2]d".toList] := by decide +kernel

end Field

end ByteScript
