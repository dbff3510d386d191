import ByteScript.Script.Scope

/-!
# The bytes of a script

A script is scanned strictly and its tokens are read in order from the root scope. The right-hand
side of a definition is a script of its own: it starts from the root scope again, sees no name of
the script around it, and nests one level deeper.

* `scanScript`: the tokens of a script without blanks and comments;
* `Scope.run`: the bytes of a list of tokens;
* `runScript`: the bytes of a script, where the values of definitions are found by `define`;
* `compileWithin`, `compile`: the bytes of a script whose definitions nest to a bounded depth.
-/

namespace ByteScript

/-- The tokens of a script without blanks and comments. -/
def scanScript (s : Text) : Except CompileError (List (Token ScriptKind)) :=
  (scriptTable.scan [.blank, .comment] true s).mapError fun e =>
    ⟨e.line, .unexpected e.text e.offset⟩

/-- The bytes of a list of tokens. -/
def Scope.run (st : Settings) (define : Nat → Text → Except CompileError Bytes) :
    Scope → List (Token ScriptKind) → Except CompileError Bytes
  | _, [] => .ok []
  | scope, t :: ts => do
    let (scope, bs) ← scope.step st define t
    let rest ← Scope.run st define scope ts
    return bs ++ rest

/-- The bytes of a script. -/
def runScript (st : Settings) (define : Nat → Text → Except CompileError Bytes) (s : Text) :
    Except CompileError Bytes := do
  let tokens ← scanScript s
  (Scope.root st).run st define tokens

/-- The bytes of a script whose definitions nest to the given depth; the lines of an error in a
definition are counted in the whole script. -/
def compileWithin (st : Settings) : (depth : Nat) → Text → Except CompileError Bytes
  | 0 => runScript st fun line _ => .error ⟨line, .depthLimit st.maxDepth⟩
  | depth + 1 => runScript st fun line s =>
    (compileWithin st depth s).mapError (CompileError.shift (line - 1))

/-- **The bytes of a script.** -/
def compile (st : Settings) (s : Text) : Except CompileError Bytes := compileWithin st st.maxDepth s

end ByteScript
