import ByteScript.Literal.Grammar
import ByteScript.Text.Quoted
import ByteScript.Encoding.Charset

/-!
# The value of a string literal

A backslash in a body that is not raw starts an escape. One character after it names a control
character or stands for itself, up to three octal digits or a fixed number of hexadecimal ones
name a code point, and before any other character the backslash is kept.

* `LiteralError`, `LiteralError.message?`: what is wrong with a literal;
* `Escape`, `readEscape`: the value of one escape;
* `expand`: the value of a body;
* `unquote`: the value of a literal.
-/

namespace ByteScript

/-- What is wrong with a literal. -/
inductive LiteralError where
  /-- The text is no literal. -/
  | malformed
  /-- Values to be filled in are not supported. -/
  | formatted
  /-- The escape names no character. -/
  | badEscape (text : Text)
deriving DecidableEq

/-- The message of an error; a malformed literal has none of its own. -/
def LiteralError.message? : LiteralError → Option Text
  | .malformed => none
  | .formatted => some "formatted string literals are not supported".toList
  | .badEscape text => some ("invalid escape ".toList ++ text.quoted)

/-! ## Escapes -/

/-- The value of an escape and the number of characters that it takes after its first. -/
structure Escape where
  value : Text
  used : Nat
deriving DecidableEq

/-- The character that a letter or a mark after a backslash stands for. -/
def simpleEscape? : Char → Option Text
  | '\n' => some []
  | '\\' => some ['\\']
  | '\'' => some ['\'']
  | '"' => some ['"']
  | 'a' => some ['\x07']
  | 'b' => some ['\x08']
  | 'f' => some ['\x0c']
  | 'n' => some ['\n']
  | 'r' => some ['\r']
  | 't' => some ['\t']
  | 'v' => some ['\x0b']
  | _ => none

/-- The number of hexadecimal digits after a letter. -/
def hexEscapeLength? : Char → Option Nat
  | 'x' => some 2
  | 'u' => some 4
  | 'U' => some 8
  | _ => none

/-- An octal digit. -/
def isOctalDigit (c : Char) : Bool := '0' ≤ c && c ≤ '7'

/-- The character whose code point a numeral of at most 32 bits denotes. -/
def codePoint (radix : Nat) (digits : Text) : Except LiteralError Char :=
  match (unsigned? 32 radix digits).bind char? with
  | some c => .ok c
  | none => .error (.badEscape digits)

/-- The escape of `c` after a backslash, with `s` after it. Digits are counted by their bytes, so a
character of several bytes among them is an error as well as a missing one. -/
def readEscape (c : Char) (s : Text) : Except LiteralError Escape :=
  match simpleEscape? c, hexEscapeLength? c with
  | some value, _ => .ok ⟨value, 0⟩
  | none, some n =>
    let digits : Text := s.take n
    if digits.utf8Size = n then do
      let d ← codePoint 16 digits
      return ⟨[d], n⟩
    else .error (.badEscape ('\\' :: c :: digits))
  | none, none =>
    if isOctalDigit c then do
      let more := (s.take 2).takeWhile isOctalDigit
      let d ← codePoint 8 (c :: more)
      return ⟨[d], more.length⟩
    else .ok ⟨['\\', c], 0⟩

/-- The value of a body. -/
def expand : Text → Except LiteralError Text
  | [] => .ok []
  | '\\' :: [] => .error (.badEscape ['\\'])
  | '\\' :: c :: s => do
    let e ← readEscape c s
    let rest ← expand (s.drop e.used)
    return e.value ++ rest
  | c :: s => do
    let rest ← expand s
    return c :: rest
termination_by s => s.length

/-! ## Literals -/

/-- The value of a literal. -/
def Literal.value (l : Literal) : Except LiteralError Text :=
  if l.isFormatted then .error .formatted
  else if l.isRaw then .ok l.body
  else expand l.body

/-- **The value of a text that is a literal.** -/
def unquote (s : Text) : Except LiteralError Text :=
  match Literal.ofText? s with
  | none => .error .malformed
  | some l => l.value

end ByteScript
