import ByteScript.Text.Printable
import ByteScript.Number.Digits

/-!
# Quoted display

The form in which error messages show a text: between double quotes, with what would not be seen
written as an escape.

* `quotedChar`: one character of the display;
* `Text.quoted`: the display of a text.
-/

namespace ByteScript

/-- A character inside a quoted display. -/
def quotedChar (c : Char) : Text :=
  if c = '\x00' then ['\\', '0']
  else if c = '\t' then ['\\', 't']
  else if c = '\n' then ['\\', 'n']
  else if c = '\r' then ['\\', 'r']
  else if c = '"' ∨ c = '\\' then ['\\', c]
  else if isPrintable c then [c]
  else ['\\', 'u', '\x7b'] ++ hexadecimal c.toNat ++ ['\x7d']

/-- A text between double quotes, as messages show it. -/
def Text.quoted (s : Text) : Text := '"' :: s.flatMap quotedChar ++ ['"']

example : Text.quoted "a\"b\n".toList = "\"a\\\"b\\n\"".toList := by decide +kernel

example : Text.quoted ['\x1b'] = ['"', '\\', 'u', '\x7b', '1', 'b', '\x7d', '"'] := by
  decide +kernel

end ByteScript
