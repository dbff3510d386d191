import ByteScript.Scan.Table
import ByteScript.Text.Blank

/-!
# Patterns of the script language

One pattern for each kind of token. Every pattern takes as much as it can, and no choice that it
makes has to be undone.

* names and digits: `nameLength`, `digitsLength`, `signLength`;
* `Pattern.definition`, `Pattern.sizeDefinition`, `Pattern.pad`;
* `Pattern.float`, `Pattern.integer`, `Pattern.hex`, `Pattern.binary`;
* `Pattern.reference`, `Pattern.string`, `Pattern.comment`.

Strings and comments run over several lines; a string that is not closed ends where its body does.
-/

namespace ByteScript

/-! ## Names and digits -/

/-- A letter or an underscore. -/
def isNameStart (c : Char) : Bool := c.isAlpha || c == '_'

/-- A letter, a digit or an underscore. -/
def isNameChar (c : Char) : Bool := c.isAlphanum || c == '_'

/-- The length of the name at the start of a text, zero if there is none. -/
def nameLength : Text → Nat
  | [] => 0
  | c :: s => if isNameStart c then 1 + (s.takeWhile isNameChar).length else 0

/-- The number of digits at the start of a text. -/
def digitsLength (s : Text) : Nat := (s.takeWhile Char.isDigit).length

/-- The length of the sign at the start of a text, zero if there is none. -/
def signLength : Text → Nat
  | '+' :: _ => 1
  | '-' :: _ => 1
  | _ => 0

/-- A hexadecimal digit of either case. -/
def isHexDigit (c : Char) : Bool :=
  c.isDigit || ('a' ≤ c && c ≤ 'f') || ('A' ≤ c && c ≤ 'F')

/-- A quotation mark of a string. -/
def isQuote (c : Char) : Bool := c == '\'' || c == '"'

namespace Pattern

/-! ## Directives -/

/-- A name after a dollar sign, an equals sign and the rest of the line. -/
def definition : Pattern
  | '$' :: s =>
    let n := nameLength s
    match s.drop n with
    | '=' :: r => if n = 0 then none else some (n + 2 + (r.takeWhile (· != '\n')).length)
    | _ => none
  | _ => none

/-- A name after an at sign, an equals sign and digits. -/
def sizeDefinition : Pattern
  | '@' :: s =>
    let n := nameLength s
    match s.drop n with
    | '=' :: r => if n = 0 ∨ digitsLength r = 0 then none else some (n + 2 + digitsLength r)
    | _ => none
  | _ => none

/-- Anything between square brackets. -/
def pad : Pattern
  | '[' :: s =>
    let n := (s.takeWhile (· != ']')).length
    if n < s.length then some (n + 2) else none
  | _ => none

/-! ## Numbers -/

/-- Digits around a point, at least one of them, after a sign or none. -/
def float : Pattern := fun s =>
  let sign := signLength s
  let whole := digitsLength (s.drop sign)
  match s.drop (sign + whole) with
  | '.' :: r =>
    if whole = 0 ∧ digitsLength r = 0 then none else some (sign + whole + 1 + digitsLength r)
  | _ => none

/-- Digits after a sign. -/
def integer : Pattern := fun s =>
  let n := digitsLength (s.drop 1)
  if signLength s = 0 ∨ n = 0 then none else some (1 + n)

/-- Hexadecimal digits after a number sign. -/
def hex : Pattern
  | '#' :: s =>
    let n := (s.takeWhile isHexDigit).length
    if n = 0 then none else some (1 + n)
  | _ => none

/-- Binary digits, with blanks and underscores after each. -/
def binary : Pattern
  | [] => none
  | c :: s =>
    if c == '0' || c == '1' then
      some (1 + (s.takeWhile fun c => c == '0' || c == '1' || c == ' ' || c == '_').length)
    else none

/-- A name, with or without a dollar sign. -/
def reference : Pattern
  | '$' :: s => if nameLength s = 0 then none else some (1 + nameLength s)
  | s => if nameLength s = 0 then none else some (nameLength s)

/-! ## Strings -/

/-- The length of a body in single marks: it ends before a mark, before a line feed and before a
backslash with no character of the line after it. -/
def shortBody (mark : Char) : Text → Nat
  | [] => 0
  | '\\' :: [] => 0
  | '\\' :: c :: s => if c = '\n' then 0 else 2 + shortBody mark s
  | c :: s => if c = mark ∨ c = '\n' then 0 else 1 + shortBody mark s

/-- The length of a body in triple marks after `pending` marks that belong to it if another
character follows: it ends before three marks and before a backslash with no character of the line
after it. -/
def longBody (mark : Char) (pending : Nat) : Text → Nat
  | [] => 0
  | '\\' :: [] => 0
  | '\\' :: c :: s => if c = '\n' then 0 else pending + 2 + longBody mark 0 s
  | c :: s =>
    if c = mark then if pending = 2 then 0 else longBody mark (pending + 1) s
    else pending + 1 + longBody mark 0 s

/-- A string in single or triple marks, with its closing marks if it has them. -/
def quoted : Pattern
  | [] => none
  | c :: s =>
    if !isQuote c then none
    else if [c, c].isPrefixOf s then
      let n := longBody c 0 (s.drop 2)
      some (3 + n + if [c, c, c].isPrefixOf (s.drop (2 + n)) then 3 else 0)
    else
      let n := shortBody c s
      some (1 + n + if [c].isPrefixOf (s.drop n) then 1 else 0)

/-- The letters that may stand before a string. -/
def stringLetters : List Text := ["r", "u", "f", "fr", "rf", "b", "br", "rb"].map String.toList

/-- The number of letters before the string at the start of a text. -/
def lettersLength (s : Text) : Nat :=
  match stringLetters.find? fun l =>
    Text.sameLetters (s.take l.length) l && (s.drop l.length).head?.any isQuote with
  | some l => l.length
  | none => 0

/-- A string with the letters before it. -/
def string : Pattern := fun s => (quoted (s.drop (lettersLength s))).map (lettersLength s + ·)

/-! ## Comments -/

/-- The number of characters up to the end of the first close of a comment, where `star` tells
that a star was read last. -/
def commentBody (star : Bool) : Text → Option Nat
  | [] => none
  | c :: s => if star && c == '/' then some 1 else (commentBody (c == '*') s).map (· + 1)

/-- A comment that is closed. -/
def comment : Pattern
  | '/' :: '*' :: s => (commentBody false s).map (· + 2)
  | _ => none

end Pattern

end ByteScript
