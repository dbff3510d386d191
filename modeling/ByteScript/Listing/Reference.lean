import ByteScript.Listing.Error
import ByteScript.Layout.Document
import ByteScript.Script.PadName

/-!
# What a field refers to

The types, repeat counts and cases of fields name widths, structures and earlier captures. Here
they are found in the layout and among the captures made so far.

* `Captures`: the values kept in one occurrence of a structure, the latest first;
* `FieldWidth`, `resolveWidth`: what a type stands for;
* `repeatCount`: the number of repetitions;
* `caseKey?`, `selectCase`: the structure that a switch selects.
-/

namespace ByteScript

/-- The values kept in one occurrence of a structure, the latest first. -/
abbrev Captures : Type := List (Text × Int)

/-- The greatest size. -/
def maxSize : Nat := Nat.pow 2 64 - 1

/-- What a type stands for. -/
inductive FieldWidth where
  | fixed (width : Nat)
  | struct (fields : FieldList)
  | switch
deriving DecidableEq

/-- What the type of a field stands for: a width of the layout, digits, a built-in width, a
structure of the layout or, in a switch, a table of cases, in this order. -/
def resolveWidth (layout : Layout) (f : Field) : Except ListingFault FieldWidth :=
  match ((layout.sizes.lookup f.type).or (size? f.type)).or (builtinWidth? f.type) with
  | some n => .ok (.fixed n)
  | none =>
    match layout.structs.lookup f.type with
    | some fields => .ok (.struct fields)
    | none => if f.format = .switch then .ok .switch else .error (.unknownType f.type)

/-- The number of repetitions; a negative value counts as none, and one above the sizes as the
greatest of them. -/
def repeatCount (captures : Captures) (f : Field) : Except ListingFault Nat :=
  match f.length with
  | .once => .ok 1
  | .count n => .ok n
  | .capture name =>
    match captures.lookup name with
    | some v => .ok (min v.toNat maxSize)
    | none => .error (.unknownVariable name)

/-! ## Switches -/

/-- The value of the key of a case: a number sign and hexadecimal digits, or a decimal number. -/
def caseKey? : Text → Option Int
  | '#' :: digits =>
    ((unsigned? 128 16 digits).filter (· < Nat.pow 2 127)).map fun n : Nat => (n : Int)
  | key => integer? 128 key

/-- The structure of the first case with the value; every case up to it has to be well formed. -/
def selectEntry (layout : Layout) (value : Int) : List Text → Except ListingFault FieldList
  | [] => .error (.noCase value)
  | entry :: entries =>
    match Text.cut? '=' entry with
    | none => .error (.badCase entry)
    | some (key, name) =>
      match caseKey? key.trim with
      | none => .error (.badCase entry)
      | some k =>
        if k = value then
          match layout.structs.lookup name.trim with
          | some fields => .ok fields
          | none => .error (.unknownStruct name.trim)
        else selectEntry layout value entries

/-- The structure that a switch selects: its type is a table of cases, and the capture that it
names has the value. -/
def selectCase (layout : Layout) (captures : Captures) (f : Field) :
    Except ListingFault FieldList :=
  match f.capture with
  | none => .error .missingSelector
  | some selector =>
    match captures.lookup selector with
    | none => .error (.unknownVariable selector)
    | some value => selectEntry layout value (f.type.splitOn ',')

end ByteScript
