import ByteScript.Listing.Line
import ByteScript.Listing.Reference
import ByteScript.Listing.Value
import ByteScript.Literal.Quote
import ByteScript.Settings

/-!
# The listing of a binary

The fields of a layout are read in order. Every occurrence of a structure, the whole included,
has captures of its own and works on the bytes from its first one on.

* `Cursor`, `Cursor.take`: a place in the bytes of an occurrence;
* `Block`: what one field gives; `readValues`, `readText`, `readStructs`: the kinds of field;
* `readField`, `readFields`: fields in order, where structures are read by `nested`;
* `decodeWithin`: an occurrence whose structures nest to a bounded depth;
* `decompile`: the listing of a binary.
-/

namespace ByteScript

/-! ## Places -/

/-- A place in the bytes of an occurrence: the number of bytes before it and those after it. -/
structure Cursor where
  offset : Nat
  rest : Bytes
deriving DecidableEq

namespace Cursor

/-- The place `n` bytes further on. -/
def advance (p : Cursor) (n : Nat) : Cursor := ⟨p.offset + n, p.rest.drop n⟩

/-- The next `n` bytes. -/
def take (p : Cursor) (n : Nat) : Except ListingFault Bytes :=
  if n ≤ p.rest.length then .ok (p.rest.take n)
  else .error (.truncated p.offset n p.rest.length)

end Cursor

/-! ## Fields -/

/-- What a field gives: its lines, the number of bytes that it takes and the bytes whose value is
kept. -/
structure Block where
  lines : List Line
  size : Nat
  captured : Bytes
deriving DecidableEq

/-- The lines of an occurrence of a structure and the number of bytes that it takes. -/
structure Occurrence where
  lines : List Line
  size : Nat
deriving DecidableEq

/-- The values of a field of fixed width, one line each; the last one is kept. -/
def readValues (layout : Layout) (f : Field) (width : Nat) :
    (count : Nat) → Cursor → Except ListingError Block
  | 0, _ => .ok ⟨[], 0, []⟩
  | count + 1, p => do
    let bs ← (p.take width).mapError (ListingError.mk f)
    let text ← (valueText layout f bs).mapError (ListingError.mk f)
    let more ← readValues layout f width count (p.advance width)
    return ⟨⟨0, bs, text⟩ :: more.lines, width + more.size,
      if count = 0 then bs else more.captured⟩

/-- The block of a text field, one line; its width counts in characters of one byte. -/
def readText (st : Settings) (f : Field) (width count : Nat) (p : Cursor) :
    Except ListingError Block := do
  let bs ← (p.take (min (width * count) maxSize)).mapError (ListingError.mk f)
  match st.encoding.decode? bs with
  | some s => return ⟨[⟨0, bs, quote s⟩], bs.length, bs⟩
  | none => throw ⟨f, .malformed st.encoding.name⟩

/-- The occurrences of a structure, their lines one step deeper; the last one is kept. -/
def readStructs (nested : Bytes → Except ListingError Occurrence) :
    (count : Nat) → Cursor → Except ListingError Block
  | 0, _ => .ok ⟨[], 0, []⟩
  | count + 1, p => do
    let r ← nested p.rest
    let more ← readStructs nested count (p.advance r.size)
    return ⟨r.lines.map Line.indent ++ more.lines, r.size + more.size,
      if count = 0 then p.rest.take r.size else more.captured⟩

/-- A field of this width may take no bytes. -/
def mayBeEmpty (f : Field) : FieldWidth → Bool
  | .fixed n => n == 0 && f.format != .text
  | .struct _ | .switch => true

/-- What a field gives at a place. The repeat count is found first, then the width; a field that
may take no bytes is not repeated more often than there are bytes, or once. -/
def readField (st : Settings) (layout : Layout)
    (nested : Field → FieldList → Bytes → Except ListingError Occurrence)
    (captures : Captures) (p : Cursor) (f : Field) : Except ListingError Block := do
  let count ← (repeatCount captures f).mapError (ListingError.mk f)
  let width ← (resolveWidth layout f).mapError (ListingError.mk f)
  if mayBeEmpty f width && max p.rest.length 1 < count then
    throw ⟨f, .repeatCount count p.rest.length⟩
  match width with
  | .fixed n => if f.format = .text then readText st f n count p else readValues layout f n count p
  | .struct fields => readStructs (nested f fields) count p
  | .switch => do
    let fields ← (selectCase layout captures f).mapError (ListingError.mk f)
    let block ← readStructs (nested f fields) count p
    return { block with captured := [] }

/-- The captures after a field: it keeps its value if it has a name and the value fits. -/
def Captures.keep (captures : Captures) (f : Field) (bs : Bytes) : Captures :=
  match f.capture, signedValue? bs with
  | some name, some v => (name, v) :: captures
  | _, _ => captures

/-- Fields in order, where `field` gives the block of each. -/
def readFields (field : Captures → Cursor → Field → Except ListingError Block) :
    Captures → Cursor → List Field → Except ListingError Occurrence
  | _, _, [] => .ok ⟨[], 0⟩
  | captures, p, f :: fs => do
    let block ← field captures p f
    let more ← readFields field (captures.keep f block.captured) (p.advance block.size) fs
    return ⟨block.lines ++ more.lines, block.size + more.size⟩

/-! ## Occurrences -/

/-- An occurrence of fields at the start of bytes, whose structures nest to the given depth. -/
def decodeWithin (st : Settings) (layout : Layout) :
    (depth : Nat) → FieldList → Bytes → Except ListingError Occurrence
  | 0, fields, bs =>
    readFields (readField st layout fun f _ _ => .error ⟨f, .depthLimit st.maxDepth⟩) []
      ⟨0, bs⟩ fields.fields
  | depth + 1, fields, bs =>
    readFields (readField st layout fun _ => decodeWithin st layout depth) [] ⟨0, bs⟩ fields.fields

/-- **The listing of a binary.** -/
def decompile (st : Settings) (layout : Layout) (bs : Bytes) : Except ListingError Listing := do
  let r ← decodeWithin st layout st.maxDepth layout.format bs
  return ⟨r.lines, r.size, bs.drop r.size⟩

/-! ## Headers -/

/-- The key of a value is a literal of the script language. -/
def isLiteralKey (key : Text) : Bool := key.head?.any fun c => c == '#' || c == '+' || c == '-'

/-- The script that binds the names of a layout: those of values, then those of widths. -/
def header (layout : Layout) : Text :=
  ((layout.defines.filter fun e => isLiteralKey e.1).flatMap fun e =>
    '$' :: e.2 ++ '=' :: e.1 ++ ['\n']) ++
  layout.sizes.flatMap fun e => '@' :: e.1 ++ '=' :: decimal e.2 ++ ['\n']

end ByteScript
