import ByteScript.Script.Error
import ByteScript.Script.PadName
import ByteScript.Settings
import ByteScript.Number.SignedMagnitude
import ByteScript.Floating.Text

/-!
# Scopes and the meaning of one token

A script is read token by token in a scope: the names bound so far, the widths with names and the
width that is active. Each token gives bytes or changes the scope.

* `Scope`, `Scope.root`;
* `Scope.padWidth`: the width that a directive names;
* `integerBytes`, `floatBytes`, `stringBytes`: the bytes of a literal;
* `Scope.step`: the meaning of one token, where the value of a definition is found by `define`.
-/

namespace ByteScript

/-- The names bound in a script, the latest first, and the active width of numbers. -/
structure Scope where
  symbols : List (Text × Bytes)
  padWidths : List (Text × Nat)
  /-- Without a width each number takes its least one. -/
  pad : Option Nat
deriving DecidableEq

/-- The scope that every script starts in. -/
def Scope.root (st : Settings) : Scope := ⟨[], [], st.padWidth⟩

/-! ## Widths -/

/-- The width that a directive names: a star stands for the least width of each number, digits for
themselves, and a name in any case for the width bound to it or built in. -/
def Scope.padWidth (scope : Scope) (text : Text) : Except CompileFault (Option Nat) :=
  let spec := Text.trim (text.drop 1).dropLast
  if spec = ['*'] then .ok none
  else if spec.allDigits then
    match size? spec with
    | some n => .ok (some n)
    | none => .error (.invalidNumber spec)
  else
    match (scope.padWidths.lookup spec.lower).or (builtinWidth? spec.lower) with
    | some n => .ok (some n)
    | none => .error (.unknownPad spec.lower)

/-! ## Literals -/

/-- The bytes of an integer literal at a width, or at its least one. -/
def integerBytes (pad : Option Nat) (text : Text) (radix : Nat) (digits : Text) (negative : Bool) :
    Except CompileFault Bytes :=
  match SignedMagnitude.read? radix digits negative with
  | none => .error (.invalidNumber text)
  | some x =>
    match x.toBytes? (pad.getD x.minimalWidth) with
    | some bs => .ok bs
    | none => .error (.overflow text (pad.getD x.minimalWidth))

/-- The bytes of a literal with a point: double above a width of four, else single. -/
def floatBytes (pad : Option Nat) (text : Text) : Except CompileFault Bytes :=
  let bytes := if pad.any (4 < ·) then (BinaryFloat.read? double text).map BinaryFloat.toBytes
    else (BinaryFloat.read? single text).map BinaryFloat.toBytes
  match bytes with
  | some bs => .ok bs
  | none => .error (.invalidNumber text)

/-- The bytes of a string literal. -/
def stringBytes (encoding : Encoding) (text : Text) : Except CompileFault Bytes :=
  match unquote text with
  | .error e => .error (.badString e)
  | .ok s =>
    match encoding.encode? s with
    | some bs => .ok bs
    | none => .error (.unencodable encoding.name)

/-! ## Tokens -/

/-- The name and the right-hand side of a definition. -/
def assignment (text : Text) : Text × Text :=
  (Text.cut? '=' (text.drop 1)).getD (text.drop 1, [])

/-- The scope after a token and the bytes that it gives. The value of a definition on a line is
found by `define`. -/
def Scope.step (st : Settings) (define : Nat → Text → Except CompileError Bytes) (scope : Scope)
    (t : Token ScriptKind) : Except CompileError (Scope × Bytes) :=
  let gives (r : Except CompileFault Bytes) : Except CompileError (Scope × Bytes) :=
    (r.mapError (CompileError.mk t.line)).map fun bs => (scope, bs)
  match t.kind with
  | .definition => do
    let bs ← define t.line (assignment t.text).2
    return ({ scope with symbols := ((assignment t.text).1, bs) :: scope.symbols }, [])
  | .sizeDefinition =>
    match size? (assignment t.text).2 with
    | some n =>
      .ok ({ scope with padWidths := ((assignment t.text).1.lower, n) :: scope.padWidths }, [])
    | none => .error ⟨t.line, .invalidNumber (assignment t.text).2⟩
  | .pad =>
    match scope.padWidth t.text with
    | .ok pad => .ok ({ scope with pad }, [])
    | .error fault => .error ⟨t.line, fault⟩
  | .integer => gives (integerBytes scope.pad t.text 10 (t.text.drop 1) (t.text.head? == some '-'))
  | .hex => gives (integerBytes scope.pad t.text 16 (t.text.drop 1) false)
  | .binary =>
    gives (integerBytes scope.pad t.text 2 (t.text.filter fun c => c == '0' || c == '1') false)
  | .float => gives (floatBytes scope.pad t.text)
  | .reference =>
    let name := t.text.dropWhile (· == '$')
    match scope.symbols.lookup name with
    | some bs => .ok (scope, bs)
    | none => .error ⟨t.line, .undefinedVariable name⟩
  | .string => gives (stringBytes st.encoding t.text)
  | .comment | .blank | .mismatch => .error ⟨t.line, .strayToken t.kind t.text⟩

end ByteScript
