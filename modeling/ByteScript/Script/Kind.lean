import ByteScript.Script.Pattern

/-!
# Tokens of the script language

* `ScriptKind`: the kinds of token;
* `scriptTable`: their patterns in order of priority. Names come before strings, so letters before
  a string are a name of their own.
-/

namespace ByteScript

/-- The kinds of token in a script. -/
inductive ScriptKind where
  /-- A name bound to the value of a line of script. -/
  | definition
  /-- A name bound to a width. -/
  | sizeDefinition
  /-- A directive that sets the width of the numbers that follow. -/
  | pad
  | float
  | integer
  | hex
  | binary
  /-- A name that stands for its value. -/
  | reference
  | string
  | comment
  | blank
  | mismatch
deriving DecidableEq

/-- The patterns of a script in order of priority. -/
def scriptTable : Table ScriptKind where
  patterns :=
    [(.definition, Pattern.definition), (.sizeDefinition, Pattern.sizeDefinition),
      (.pad, Pattern.pad), (.float, Pattern.float), (.integer, Pattern.integer),
      (.hex, Pattern.hex), (.binary, Pattern.binary), (.reference, Pattern.reference),
      (.string, Pattern.string), (.comment, Pattern.comment), (.blank, Pattern.many1 isBlank)]
  mismatch := .mismatch

/-- A number with a point is one token although digits alone are binary. -/
example : scriptTable.next "01.5 0".toList = (.float, 4) := by decide

/-- Letters before a string are a token of their own. -/
example : scriptTable.next "rb'x'".toList = (.reference, 2) := by decide

end ByteScript
