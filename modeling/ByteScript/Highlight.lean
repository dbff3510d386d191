import ByteScript.Scan.Token
import ByteScript.Script.Kind

/-!
# Highlighting

The styled ranges of a script for an editor. The scan is tolerant, so a script with errors has
ranges too: what no pattern takes is a range of its own style.

* `Style`, `Span`: a style and a range of bytes;
* `highlight`: the ranges of a script in order.
-/

namespace ByteScript

/-- The styles of a script. -/
inductive Style where
  | definition
  | padding
  | number
  | variable
  | text
  | comment
  | error
deriving DecidableEq

/-- The style of a kind of token; blanks are never styled. -/
def ScriptKind.style : ScriptKind → Style
  | .definition | .sizeDefinition => .definition
  | .pad => .padding
  | .integer | .hex | .binary | .float => .number
  | .reference => .variable
  | .string => .text
  | .comment => .comment
  | .blank | .mismatch => .error

/-- A range of bytes with its style. -/
structure Span where
  style : Style
  start : Nat
  stop : Nat
deriving DecidableEq

/-- The styled ranges of a script. -/
def highlight (s : Text) : List Span :=
  match scriptTable.scan [.blank] false s with
  | .ok tokens => tokens.map fun t => ⟨t.kind.style, t.start, t.stop⟩
  | .error _ => []

end ByteScript
