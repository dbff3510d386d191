import ByteScript.Listing.Error
import ByteScript.Layout.Document
import ByteScript.Number.BigEndian
import ByteScript.Floating.Text

/-!
# Values of fields

The text of one value: a directive with the type of its field and a literal, or the name that the
layout gives to the value.

* `hasValue`, `defineName?`: the value that a key of the layout stands for, and the name of bytes;
* `signedText`: a value with its sign;
* `valueText`: the text of a value in the format of its field.
-/

namespace ByteScript

/-! ## Names of values -/

/-- The bytes have the value that a key stands for: a number sign and hexadecimal digits for an
unsigned value, a decimal number for a signed one. -/
def hasValue (bs : Bytes) : (key : Text) → Bool
  | '#' :: digits => (unsignedValue? bs).any fun v => unsigned? 128 16 digits == some v
  | key => (signedValue? bs).any fun v => integer? 128 key == some v

/-- The name of the value of bytes: that of the first key that stands for it. -/
def defineName? (layout : Layout) (bs : Bytes) : Option Text :=
  (layout.defines.find? fun e => hasValue bs e.1).map Prod.snd

/-! ## Text of values -/

/-- The signed value of bytes, always with a sign. -/
def signedText (bs : Bytes) : Except ListingFault Text :=
  match signedValue? bs with
  | some v => .ok (if v < 0 then signedDecimal v else '+' :: signedDecimal v)
  | none => .error .tooWide

/-- The literal of a floating-point value; one without a literal by its bits. -/
def floatValueText (bs : Bytes) : Except ListingFault Text :=
  match BinaryFloat.ofBytes? bs with
  | some x => .ok (if x.isFinite then floatText x (bs.length == 4) else '#' :: hexBytes bs)
  | none => .error (.floatWidth bs.length)

/-- The literal of a value after a directive with the type of its field. -/
def directed (f : Field) (literal : Text) : Text := '[' :: f.type ++ ']' :: ' ' :: literal

/-- The text of one value of a field. -/
def valueText (layout : Layout) (f : Field) (bs : Bytes) : Except ListingFault Text :=
  match f.format with
  | .float => (floatValueText bs).map (directed f)
  | .binary => .ok (directed f (binaryBytes bs))
  | .hex => .ok (directed f ('#' :: hexBytes bs))
  | .define =>
    match defineName? layout bs with
    | some name => .ok name
    | none => (signedText bs).map (directed f)
  | .decimal | .text | .switch => (signedText bs).map (directed f)

end ByteScript
