import ByteScript.Floating.Shortest
import ByteScript.Number.Digits

/-!
# Floating-point numbers as text

Numbers are written positionally, never with an exponent, and always with a decimal point, so
that a script reads them back as floating-point literals.

* `Decimal.toText`: a decimal in positional notation;
* `BinaryFloat.toText`, `floatText`: a number as text, in either format;
* `BinaryFloat.read?`: the number of a literal with a point.
-/

namespace ByteScript

/-! ## Writing -/

/-- A decimal in positional notation; a point stands only before decimal places. -/
def Decimal.toText (d : Decimal) : Text :=
  let digits := decimal d.coefficient ++ List.replicate d.zeros '0'
  if d.places = 0 then digits
  else
    let padded := List.replicate (d.places + 1 - digits.length) '0' ++ digits
    padded.take (padded.length - d.places) ++ '.' :: padded.drop (padded.length - d.places)

/-- A number by its shortest decimal, or by name. -/
def BinaryFloat.toText {fmt : FloatFormat} (x : BinaryFloat fmt) : Text :=
  if x.isNaN then "NaN".toList
  else
    (if x.negative then ['-'] else []) ++
      if x.isFinite then (fmt.shortest x.magnitude).toText else "inf".toList

/-- The text of a number in the single or the double format; a finite number gets a point. -/
def floatText (x : BinaryFloat double) (asSingle : Bool) : Text :=
  let text := if asSingle then (x.convert single).toText else x.toText
  if x.isFinite && !text.contains '.' then text ++ ['.', '0'] else text

/-! ## Reading -/

/-- A text without the sign that may stand before it, and whether that is a minus. -/
def splitSign : Text → Bool × Text
  | '-' :: s => (true, s)
  | '+' :: s => (false, s)
  | s => (false, s)

/-- The number of a decimal literal: digits around a point, with at least one digit. -/
def BinaryFloat.read? (fmt : FloatFormat) (s : Text) : Option (BinaryFloat fmt) :=
  match Text.cut? '.' (splitSign s).2 with
  | none => none
  | some (whole, places) =>
    if IsNumeral 10 (whole ++ places) then
      some ⟨(splitSign s).1, fmt.round (valueOf 10 (whole ++ places)) (Nat.pow 10 places.length)⟩
    else none

/-- A decimal has its digits around the point. -/
example : (⟨125, 0, 4⟩ : Decimal).toText = "0.0125".toList ∧
    (⟨15, 2, 0⟩ : Decimal).toText = "1500".toList := by decide

end ByteScript
