import ByteScript.Number.BigEndian

/-!
# Binary floating-point formats

A format is given by the widths of its two fields. A number is a sign beside a magnitude, the
exponent and fraction fields read as one natural number; magnitudes are ordered as the numbers
they stand for. Every finite magnitude is a whole number of `units`, the least positive number of
the format, so that all arithmetic is on natural numbers.

* `FloatFormat`, `single`, `double`; `BinaryFloat`: the numbers of a format;
* `FloatFormat.step`, `FloatFormat.units`: the spacing at a magnitude and its value, in units;
* `roundEven`, `FloatFormat.round`: the magnitude nearest to a fraction, ties to even;
* `BinaryFloat.convert`, `BinaryFloat.toBytes`, `BinaryFloat.ofBytes?`.
-/

namespace ByteScript

/-! ## Formats -/

/-- The widths in bits of the exponent and fraction fields of a format. -/
structure FloatFormat where
  exponentBits : Nat
  fractionBits : Nat
deriving DecidableEq

/-- The format of four bytes. -/
def single : FloatFormat := ⟨8, 23⟩

/-- The format of eight bytes. -/
def double : FloatFormat := ⟨11, 52⟩

namespace FloatFormat

variable (fmt : FloatFormat)

/-- The width of a number of the format in bytes. -/
def byteWidth : Nat := (1 + fmt.exponentBits + fmt.fractionBits) / 8

/-- The magnitude of infinity; greater ones are not numbers. -/
def infinity : Nat := (Nat.pow 2 fmt.exponentBits - 1) * Nat.pow 2 fmt.fractionBits

/-- The number of units in one, as an exponent of two. -/
def scale : Nat := Nat.pow 2 (fmt.exponentBits - 1) + fmt.fractionBits - 2

/-- The exponent field of a magnitude. -/
def exponentField (m : Nat) : Nat := m / Nat.pow 2 fmt.fractionBits

/-- The fraction field of a magnitude. -/
def fractionField (m : Nat) : Nat := m % Nat.pow 2 fmt.fractionBits

/-- The distance from a magnitude to the next one, in units. -/
def step (m : Nat) : Nat := Nat.pow 2 (fmt.exponentField m - 1)

/-- The value of a magnitude in units: numbers with a nonzero exponent field have a leading one. -/
def units (m : Nat) : Nat :=
  if fmt.exponentField m = 0 then fmt.fractionField m
  else (fmt.fractionField m + Nat.pow 2 fmt.fractionBits) * fmt.step m

end FloatFormat

/-! ## Rounding -/

/-- The whole number nearest to `n / d`, the even one of two. -/
def roundEven (n d : Nat) : Nat :=
  let q := n / d
  let r := 2 * (n % d)
  if r < d ∨ (r = d ∧ q % 2 = 0) then q else q + 1

/-- The exponent of the spacing of numbers around `q` units. -/
def FloatFormat.spacing (fmt : FloatFormat) (q : Nat) : Nat := q.log2 - fmt.fractionBits

/-- The magnitude nearest to `n / d`, ties to the even one; infinity from half a step past the
greatest finite number on. -/
def FloatFormat.round (fmt : FloatFormat) (n d : Nat) : Nat :=
  let units := n * Nat.pow 2 fmt.scale
  let s := fmt.spacing (units / d)
  min fmt.infinity (s * Nat.pow 2 fmt.fractionBits + roundEven units (d * Nat.pow 2 s))

/-! ## Numbers -/

/-- A number of a format: its sign and its magnitude. -/
structure BinaryFloat (fmt : FloatFormat) where
  negative : Bool
  magnitude : Nat
deriving DecidableEq

namespace BinaryFloat

variable {fmt : FloatFormat}

/-- The number is neither infinite nor undefined. -/
def isFinite (x : BinaryFloat fmt) : Bool := x.magnitude < fmt.infinity

/-- The value is undefined. -/
def isNaN (x : BinaryFloat fmt) : Bool := fmt.infinity < x.magnitude

/-- The bits of a number. -/
def toBits (x : BinaryFloat fmt) : Nat :=
  (if x.negative then Nat.pow 2 (fmt.exponentBits + fmt.fractionBits) else 0) + x.magnitude

/-- The number with these bits. -/
def ofBits (fmt : FloatFormat) (bits : Nat) : BinaryFloat fmt where
  negative := bits / Nat.pow 2 (fmt.exponentBits + fmt.fractionBits) % 2 = 1
  magnitude := bits % Nat.pow 2 (fmt.exponentBits + fmt.fractionBits)

/-- The number in big-endian bytes. -/
def toBytes (x : BinaryFloat fmt) : Bytes := bigEndian fmt.byteWidth x.toBits

/-- The number in another format, rounded if need be; infinite and undefined values are kept. -/
def convert (target : FloatFormat) (x : BinaryFloat fmt) : BinaryFloat target where
  negative := x.negative
  magnitude :=
    if x.isFinite then target.round (fmt.units x.magnitude) (Nat.pow 2 fmt.scale)
    else if x.isNaN then target.infinity + Nat.pow 2 (target.fractionBits - 1)
    else target.infinity

/-- The value of a field of four or eight bytes. -/
def ofBytes? (bs : Bytes) : Option (BinaryFloat double) :=
  match bs.length with
  | 4 => some ((ofBits single (ofBigEndian bs)).convert double)
  | 8 => some (ofBits double (ofBigEndian bs))
  | _ => none

end BinaryFloat

example : (⟨false, single.round 3 2⟩ : BinaryFloat single).toBytes = [0x3f, 0xc0, 0, 0] := by decide

end ByteScript
