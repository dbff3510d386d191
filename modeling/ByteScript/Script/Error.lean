import ByteScript.Script.Kind
import ByteScript.Scan.Token
import ByteScript.Literal.Escape

/-!
# Errors of a script

* `CompileFault`: what can be wrong;
* `CompileError`: a fault and its line; `CompileError.shift`: the error lines further down;
* `CompileError.message?`: its wording.
-/

namespace ByteScript

/-- The name of a kind of token. -/
def ScriptKind.name : ScriptKind → String
  | .definition => "def"
  | .sizeDefinition => "sizedef"
  | .pad => "pad"
  | .float => "float"
  | .integer => "int"
  | .hex => "hex"
  | .binary => "bin"
  | .reference => "var"
  | .string => "str"
  | .comment => "comment"
  | .blank => "white_space"
  | .mismatch => "mismatch"

/-- What can be wrong with a script. -/
inductive CompileFault where
  /-- No token starts at the offset. -/
  | unexpected (text : Text) (offset : Nat)
  | unknownPad (name : Text)
  | undefinedVariable (name : Text)
  /-- A token of a kind that has no meaning in a script. -/
  | strayToken (kind : ScriptKind) (text : Text)
  /-- The number does not fit in the width. -/
  | overflow (text : Text) (width : Nat)
  | invalidNumber (text : Text)
  | badString (error : LiteralError)
  /-- The text has no form in the encoding with this name. -/
  | unencodable (encoding : String)
  /-- Definitions nest too deep. -/
  | depthLimit (limit : Nat)
deriving DecidableEq

/-- A fault and the line that it is on. -/
structure CompileError where
  line : Nat
  fault : CompileFault
deriving DecidableEq

/-- The error in a script that starts `n` lines further down. -/
def CompileError.shift (n : Nat) (e : CompileError) : CompileError := { e with line := e.line + n }

theorem CompileError.shift_shift (m n : Nat) (e : CompileError) :
    (e.shift m).shift n = e.shift (m + n) := by
  simp [CompileError.shift, Nat.add_assoc]

/-- The message of an error; a malformed string has none of its own. -/
def CompileError.message? (e : CompileError) : Option Text :=
  let onLine := " on line ".toList ++ decimal e.line
  match e.fault with
  | .unexpected text offset => some (Unexpected.message ⟨text, offset, e.line⟩)
  | .unknownPad name => some ("unknown padding type ".toList ++ name.quoted ++ onLine)
  | .undefinedVariable name => some ("undefined variable ".toList ++ name.quoted ++ onLine)
  | .strayToken kind text =>
    some ("unexpected ".toList ++ kind.name.toList ++ " token ".toList ++ text.quoted ++ onLine)
  | .overflow text width =>
    some (text ++ " does not fit in ".toList ++ decimal width ++ " byte(s)".toList ++ onLine)
  | .invalidNumber text => some ("invalid number ".toList ++ text.quoted ++ onLine)
  | .badString error =>
    error.message?.map fun m => "line ".toList ++ decimal e.line ++ ": ".toList ++ m
  | .unencodable encoding =>
    some ("text".toList ++ onLine ++ " cannot be encoded as ".toList ++ encoding.toList)
  | .depthLimit limit =>
    some ("definitions nested deeper than ".toList ++ decimal limit ++ onLine)

end ByteScript
