import ByteScript.Literal.Escape

/-!
# Writing string literals

The literal of a text stands in single marks, unless the text holds single marks only. What the
marks, the line structure or the eye would lose is escaped.

* `quoteMark`, `quoteChar`, `quote`.
-/

namespace ByteScript

/-- The mark around the literal of a text. -/
def quoteMark (s : Text) : Char := if s.contains '\'' && !s.contains '"' then '"' else '\''

/-- A control character. -/
def isControl (c : Char) : Bool := c.toNat < 0x20 || (0x7f ≤ c.toNat && c.toNat < 0xa0)

/-- A character inside a literal. -/
def quoteChar (mark c : Char) : Text :=
  if c = '\\' then ['\\', '\\']
  else if c = '\n' then ['\\', 'n']
  else if c = '\r' then ['\\', 'r']
  else if c = '\t' then ['\\', 't']
  else if c = mark then ['\\', c]
  else if isControl c then '\\' :: 'x' :: hexByte (UInt8.ofNat c.toNat)
  else [c]

/-- The literal of a text. -/
def quote (s : Text) : Text := quoteMark s :: s.flatMap (quoteChar (quoteMark s)) ++ [quoteMark s]

example : quote "it's".toList = "\"it's\"".toList ∧ quote ['\x01'] = "'\\x01'".toList := by decide

end ByteScript
